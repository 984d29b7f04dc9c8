import Mathlib.Data.Nat.Digits.Defs

/-! Texts of fields that a separator divides, and of numbers in a base of at most sixteen. -/
namespace DelimitedText

section Separators

variable {c : Char} {a b x y : List Char}

/-- The field in front of the first separator -/
theorem append_separator_inj (ha : c ∉ a) (hb : c ∉ b) (h : a ++ c :: x = b ++ c :: y) :
    a = b ∧ x = y := by
  induction a generalizing b with
  | nil =>
    cases b with
    | nil => exact ⟨rfl, (List.cons.inj h).2⟩
    | cons d b => exact absurd ((List.cons.inj h).1 ▸ List.mem_cons_self) hb
  | cons d a ih =>
    cases b with
    | nil => exact absurd ((List.cons.inj h).1 ▸ List.mem_cons_self) ha
    | cons d' b =>
      obtain ⟨rfl, htail⟩ := List.cons.inj h
      obtain ⟨rfl, hxy⟩ := ih (fun hmem => ha (List.mem_cons_of_mem d hmem))
        (fun hmem => hb (List.mem_cons_of_mem d hmem)) htail
      exact ⟨rfl, hxy⟩

theorem append_separator_inj_last (hx : c ∉ x) (hy : c ∉ y) (h : a ++ c :: x = b ++ c :: y) :
    a = b ∧ x = y := by
  have hreverse : x.reverse ++ c :: a.reverse = y.reverse ++ c :: b.reverse := by
    simpa using congrArg List.reverse h
  obtain ⟨hxy, hab⟩ := append_separator_inj (by simpa using hx) (by simpa using hy) hreverse
  exact ⟨List.reverse_inj.mp hab, List.reverse_inj.mp hxy⟩

end Separators

section Numbers

variable {b w n m : ℕ} {c : Char}

/-- The value of a digit; the digits from ten on are lower-case letters. -/
def digitValue (c : Char) : ℕ := if c.toNat < 97 then c.toNat - 48 else c.toNat - 87

theorem digitValue_digitChar : ∀ d < 16, digitValue (Nat.digitChar d) = d := by decide

def readDigits (b : ℕ) (text : List Char) (v : ℕ) : ℕ :=
  text.foldl (fun v c => b * v + digitValue c) v

theorem readDigits_toDigits (hb : 1 < b) (hle : b ≤ 16) : readDigits b (Nat.toDigits b n) 0 = n := by
  induction n using Nat.strongRecOn with
  | ind n ih =>
    by_cases hn : n < b
    · rw [Nat.toDigits_of_lt_base hn]
      have hdigit := digitValue_digitChar n (by omega)
      simp [readDigits, hdigit]
    · have hn := Nat.not_lt.mp hn
      have hdigit := digitValue_digitChar (n % b) ((Nat.mod_lt n (by omega)).trans_le hle)
      have hquotient := ih (n / b) (Nat.div_lt_self (by omega) hb)
      rw [Nat.toDigits_of_base_le hb hn, readDigits, List.foldl_append]
      change b * readDigits b (Nat.toDigits b (n / b)) 0 + digitValue (Nat.digitChar (n % b)) = n
      rw [hquotient, hdigit]
      exact Nat.div_add_mod n b

/-- At least `w` digits -/
def padded (b w n : ℕ) : List Char :=
  List.replicate (w - (Nat.toDigits b n).length) '0' ++ Nat.toDigits b n

theorem readDigits_zeros (k : ℕ) : readDigits b (List.replicate k '0') 0 = 0 := by
  induction k with
  | zero => rfl
  | succ k ih =>
    rw [List.replicate_succ, readDigits, List.foldl_cons]
    exact ih

theorem readDigits_padded (hb : 1 < b) (hle : b ≤ 16) : readDigits b (padded b w n) 0 = n := by
  unfold padded readDigits
  rw [List.foldl_append]
  change readDigits b (Nat.toDigits b n) (readDigits b (List.replicate _ '0') 0) = n
  rw [readDigits_zeros]
  exact readDigits_toDigits hb hle

theorem padded_inj (hb : 1 < b) (hle : b ≤ 16) (h : padded b w n = padded b w m) : n = m := by
  calc n = readDigits b (padded b w n) 0 := (readDigits_padded hb hle).symm
    _ = readDigits b (padded b w m) 0 := by rw [h]
    _ = m := readDigits_padded hb hle

theorem toDigits_inj (hb : 1 < b) (hle : b ≤ 16) (h : Nat.toDigits b n = Nat.toDigits b m) :
    n = m := by
  calc n = readDigits b (Nat.toDigits b n) 0 := (readDigits_toDigits hb hle).symm
    _ = readDigits b (Nat.toDigits b m) 0 := by rw [h]
    _ = m := readDigits_toDigits hb hle

theorem mem_toDigits (hb : 1 < b) (hc : c ∈ Nat.toDigits b n) : ∃ d < b, c = Nat.digitChar d := by
  induction n using Nat.strongRecOn with
  | ind n ih =>
    by_cases hn : n < b
    · rw [Nat.toDigits_of_lt_base hn, List.mem_singleton] at hc
      exact ⟨n, hn, hc⟩
    · have hn := Nat.not_lt.mp hn
      rw [Nat.toDigits_of_base_le hb hn, List.mem_append, List.mem_singleton] at hc
      rcases hc with hc | hc
      · exact ih (n / b) (Nat.div_lt_self (by omega) hb) hc
      · exact ⟨n % b, Nat.mod_lt n (by omega), hc⟩

theorem mem_padded (hb : 1 < b) (hc : c ∈ padded b w n) : ∃ d < b, c = Nat.digitChar d := by
  rcases List.mem_append.mp hc with hc | hc
  · exact ⟨0, by omega, List.eq_of_mem_replicate hc⟩
  · exact mem_toDigits hb hc

theorem digitChar_plain : ∀ d < 16, Nat.digitChar d ≠ ':' ∧ Nat.digitChar d ≠ '-' := by decide

theorem not_mem_padded (hb : 1 < b) (hle : b ≤ 16) (hsep : c = ':' ∨ c = '-') :
    c ∉ padded b w n := by
  intro hc
  obtain ⟨d, hd, rfl⟩ := mem_padded hb hc
  have hplain := digitChar_plain d (by omega)
  rcases hsep with h | h
  · exact hplain.1 h
  · exact hplain.2 h

theorem not_mem_toDigits (hb : 1 < b) (hle : b ≤ 16) (hsep : c = ':' ∨ c = '-') :
    c ∉ Nat.toDigits b n := by
  intro hc
  exact not_mem_padded hb hle hsep (w := 0) (List.mem_append_right _ hc)

end Numbers

end DelimitedText
