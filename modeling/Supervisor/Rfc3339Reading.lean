import Supervisor.Rfc3339

/-! The reader of the texts, the instant that it takes a text for, and the bytes that a table
compares instead of the texts. -/
namespace Rfc3339

section Reader

/-- The number that decimal digits write -/
def decimal (text : List Char) : ℕ := text.foldl (fun n c => 10 * n + (c.toNat - 48)) 0

/-- The next `w` characters, which have to be digits -/
def readDigits (w : ℕ) (text : List Char) : Option (ℕ × List Char) :=
  if (text.take w).length = w ∧ (text.take w).all Char.isDigit then
    some (decimal (text.take w), text.drop w)
  else none

/-- The next character, which has to be one of these -/
def expect (expected : List Char) : List Char → Option (List Char)
  | [] => none
  | c :: text => if c ∈ expected then some text else none

/-- Digits after the ninth are skipped. -/
def nanoseconds (fraction : List Char) : ℕ :=
  decimal (fraction.take 9) * 10^(9 - (fraction.take 9).length)

def readFraction (text : List Char) : Option (ℕ × List Char) :=
  match text with
  | '.' :: text =>
    let fraction := text.takeWhile Char.isDigit
    if fraction = [] then none else some (nanoseconds fraction, text.dropWhile Char.isDigit)
  | text => some (0, text)

/-- The minutes that a zone is ahead. Nothing may follow the zone. -/
def readOffset : List Char → Option ℤ
  | ['Z'] | ['z'] => some 0
  | sign :: text => do
    let (hours, text) ← readDigits 2 text
    let text ← expect [':'] text
    let (minutes, text) ← readDigits 2 text
    if text ≠ [] ∨ 24 ≤ hours ∨ 60 ≤ minutes then none
    else if sign = '+' then some (60 * hours + minutes : ℕ)
    else if sign = '-' ∨ sign = '−' then some (-(60 * hours + minutes : ℕ))
    else none
  | [] => none

/-- The day of a date, counted from the start of the year 0 -/
def dayNumber (y m d : ℕ) : ℕ :=
  daysPerCycle * (y / 400) + daysBefore (y % 400) +
    ((monthLengths (y % 400)).take (m - 1)).sum + (d - 1)

/-- A second that is 60 is a leap second. -/
def readTime (text : List Char) : Option (ℕ × List Char) := do
  let (hour, text) ← readDigits 2 text
  let text ← expect [':'] text
  let (minute, text) ← readDigits 2 text
  let text ← expect [':'] text
  let (second, text) ← readDigits 2 text
  let (fraction, text) ← readFraction text
  if 24 ≤ hour ∨ 60 ≤ minute ∨ 60 < second then none
  else some (hour * nanosPerHour + minute * nanosPerMinute + second * nanosPerSecond + fraction, text)

def parseFromRfc3339 (text : List Char) : Option ℤ := do
  let (y, text) ← readDigits 4 text
  let text ← expect ['-'] text
  let (m, text) ← readDigits 2 text
  let text ← expect ['-'] text
  let (d, text) ← readDigits 2 text
  let text ← expect ['T', 't', ' '] text
  let (time, text) ← readTime text
  let offset ← readOffset text
  if m = 0 ∨ d = 0 ∨ ((monthLengths (y % 400))[m - 1]?).getD 0 < d then none
  else some (((dayNumber y m d : ℤ) - 719528) * nanosPerDay + time - offset * nanosPerMinute)

example : parseFromRfc3339 "2026-07-25T14:34:56.12+02:00".toList = some 1784982896120000000 := by
  decide +kernel

end Reader

section RoundTrip

variable {w n : ℕ}

theorem digitChar_value : ∀ d < 10,
    (Nat.digitChar d).isDigit = true ∧ (Nat.digitChar d).toNat - 48 = d := by decide

theorem length_digits : (digits w n).length = w := by
  induction w generalizing n with
  | zero => rfl
  | succ w ih =>
    unfold digits
    rw [List.length_cons, ih]

theorem isDigit_digits (hn : n < 10^w) : ∀ c ∈ digits w n, c.isDigit = true := by
  induction w generalizing n with
  | zero => exact fun c hc => absurd hc List.not_mem_nil
  | succ w ih =>
    intro c hc
    have hten : n / 10^w < 10 := Nat.div_lt_of_lt_mul (by rwa [← Nat.pow_succ])
    rcases List.mem_cons.mp hc with rfl | hrest
    · exact (digitChar_value _ hten).1
    · exact ih (Nat.mod_lt n (Nat.pow_pos (by decide))) c hrest

theorem decimal_digits (hn : n < 10^w) : decimal (digits w n) = n := by
  have hfold (a : ℕ) :
      (digits w n).foldl (fun n c => 10 * n + (c.toNat - 48)) a = a * 10^w + n := by
    induction w generalizing n a with
    | zero =>
      have hzero : n = 0 := by omega
      subst hzero
      change a = a * 10^0 + 0
      omega
    | succ w ih =>
      have hten : n / 10^w < 10 := Nat.div_lt_of_lt_mul (by rwa [← Nat.pow_succ])
      have hmod := Nat.mod_lt n (show 0 < 10^w from Nat.pow_pos (by decide))
      unfold digits
      rw [List.foldl_cons, ih hmod, (digitChar_value _ hten).2]
      calc (10 * a + n / 10^w) * 10^w + n % 10^w
          = 10 * a * 10^w + (10^w * (n / 10^w) + n % 10^w) := by
            rw [Nat.add_mul, Nat.add_assoc, Nat.mul_comm (n / 10^w)]
        _ = 10 * a * 10^w + n := by rw [Nat.div_add_mod]
        _ = a * 10^(w + 1) + n := by
            rw [Nat.mul_comm 10 a, Nat.mul_assoc, ← Nat.pow_succ']
  unfold decimal
  rw [hfold, Nat.zero_mul, Nat.zero_add]

theorem readDigits_digits (hn : n < 10^w) (text : List Char) :
    readDigits w (digits w n ++ text) = some (n, text) := by
  have htake : (digits w n ++ text).take w = digits w n := List.take_left' length_digits
  have hdrop : (digits w n ++ text).drop w = text := List.drop_left' length_digits
  unfold readDigits
  rw [htake, hdrop, decimal_digits hn]
  exact if_pos ⟨length_digits, List.all_eq_true.mpr (isDigit_digits hn)⟩

theorem readFraction_digits (hn : n < 10^(w + 1)) (hw : w + 1 ≤ 9) :
    readFraction ('.' :: digits (w + 1) n ++ offsetText) = some (n * 10^(9 - (w + 1)), offsetText) := by
  have hdigits := isDigit_digits hn
  have htake : (digits (w + 1) n ++ offsetText).takeWhile Char.isDigit = digits (w + 1) n := by
    rw [List.takeWhile_append_of_pos hdigits]
    exact List.append_nil _
  have hdrop : (digits (w + 1) n ++ offsetText).dropWhile Char.isDigit = offsetText :=
    List.dropWhile_append_of_pos hdigits
  have hnine : (digits (w + 1) n).take 9 = digits (w + 1) n := by
    apply List.take_of_length_le
    rw [length_digits]
    exact hw
  have hne : digits (w + 1) n ≠ [] := List.cons_ne_nil _ _
  change (let fraction := (digits (w + 1) n ++ offsetText).takeWhile Char.isDigit
    if fraction = [] then none
    else some (nanoseconds fraction, (digits (w + 1) n ++ offsetText).dropWhile Char.isDigit)) = _
  rw [htake, hdrop]
  dsimp only
  rw [if_neg hne]
  unfold nanoseconds
  rw [hnine, decimal_digits hn, length_digits]

theorem readFraction_fractionText (hn : n < nanosPerSecond) :
    readFraction (fractionText n ++ offsetText) = some (n, offsetText) := by
  unfold nanosPerSecond at hn
  unfold fractionText
  split
  · rename_i hzero
    rw [hzero]
    rfl
  split
  · rw [readFraction_digits (w := 2) (by omega) (by decide)]
    have hexact : n / 10^6 * 10^(9 - (2 + 1)) = n := by omega
    rw [hexact]
  split
  · rw [readFraction_digits (w := 5) (by omega) (by decide)]
    have hexact : n / 10^3 * 10^(9 - (5 + 1)) = n := by omega
    rw [hexact]
  · rw [readFraction_digits (w := 8) hn (by decide)]
    rw [Nat.sub_self, Nat.pow_zero, Nat.mul_one]

theorem expect_cons {c : Char} {expected : List Char} (h : c ∈ expected) (text : List Char) :
    expect expected (c :: text) = some text := if_pos h

theorem expect_self (c : Char) (text : List Char) : expect [c] (c :: text) = some text :=
  expect_cons List.mem_cons_self text

theorem readTime_timeText (hn : n < nanosPerDay) :
    readTime (timeText n) = some (n, offsetText) := by
  unfold nanosPerDay nanosPerHour nanosPerMinute nanosPerSecond at hn
  have hhour : n / nanosPerHour < 24 := by unfold nanosPerHour nanosPerMinute nanosPerSecond; omega
  have hminute : n % nanosPerHour / nanosPerMinute < 60 := by
    unfold nanosPerHour nanosPerMinute nanosPerSecond; omega
  have hsecond : n % nanosPerHour % nanosPerMinute / nanosPerSecond < 60 := by
    unfold nanosPerHour nanosPerMinute nanosPerSecond; omega
  have hfraction : n % nanosPerHour % nanosPerMinute % nanosPerSecond < nanosPerSecond :=
    Nat.mod_lt _ (by decide)
  have hsum : n / nanosPerHour * nanosPerHour + n % nanosPerHour / nanosPerMinute * nanosPerMinute +
      n % nanosPerHour % nanosPerMinute / nanosPerSecond * nanosPerSecond +
      n % nanosPerHour % nanosPerMinute % nanosPerSecond = n := by
    unfold nanosPerHour nanosPerMinute nanosPerSecond
    omega
  have htwo {k : ℕ} (hk : k < 60) (text : List Char) :
      readDigits 2 (digits 2 k ++ text) = some (k, text) := readDigits_digits (by omega) text
  unfold readTime timeText minuteText secondText
  simp only [htwo (hhour.trans (by decide)), htwo hminute, htwo hsecond, expect_self,
    readFraction_fractionText hfraction, Option.bind_eq_bind, Option.bind_some]
  rw [if_neg (by omega), hsum]

/-- The day of a month and the months before it make the day. -/
theorem monthDay_sum {m k : ℕ} {lengths : List ℕ} (hk : k < lengths.sum) :
    (lengths.take ((monthDay m lengths k).1 - m)).sum + (monthDay m lengths k).2 = k ∧
      (monthDay m lengths k).2 < (lengths[(monthDay m lengths k).1 - m]?).getD 0 := by
  induction lengths generalizing m k with
  | nil => simp at hk
  | cons len rest ih =>
    unfold monthDay
    split
    · rename_i hlt
      dsimp only
      rw [Nat.sub_self]
      exact ⟨Nat.zero_add k, hlt⟩
    · rename_i hge
      rw [List.sum_cons] at hk
      have hnext := ih (m := m + 1) (k := k - len) (by omega)
      have hm := monthDay_ge (m + 1) (k - len) rest
      have hindex : (monthDay (m + 1) rest (k - len)).1 - m =
          (monthDay (m + 1) rest (k - len)).1 - (m + 1) + 1 := by omega
      rw [hindex, List.take_succ_cons, List.sum_cons, List.getElem?_cons_succ]
      exact ⟨by omega, hnext.2⟩

variable {t : ℤ}

theorem dayNumber_day (hyear : 0 ≤ year (day t)) :
    let date := monthDay 1 (monthLengths (yearOfCycle (day t))) (dayOfYear (day t))
    (year (day t)).toNat % 400 = yearOfCycle (day t) ∧
      (dayNumber (year (day t)).toNat date.1 (date.2 + 1) : ℤ) = day t := by
  intro date
  have hcycle : yearOfCycle (day t) < 400 := yearOfCycle_lt
  have hparts : year (day t) = 400 * (day t / daysPerCycle) + yearOfCycle (day t) := rfl
  have hmod : (year (day t)).toNat % 400 = yearOfCycle (day t) := by omega
  have hsum := (monthDay_sum (m := 1) (dayOfYear_lt (d := day t))).1
  have hfirst : daysBefore (yearOfCycle (day t)) ≤ (day t % daysPerCycle).toNat := yearOf_le _
  have hnonneg := Int.emod_nonneg (day t) (b := daysPerCycle) (by decide)
  have hday := Int.emod_add_mul_ediv (day t) daysPerCycle
  refine ⟨hmod, ?_⟩
  unfold dayNumber
  rw [hmod, Nat.add_sub_cancel]
  change (List.take (date.1 - 1) _).sum + date.2 = dayOfYear (day t) at hsum
  unfold dayOfYear at hsum
  unfold daysPerCycle at *
  omega

theorem parse_toRfc3339 (ht : hasFourDigits t = true) : parseFromRfc3339 (toRfc3339 t) = some t := by
  unfold hasFourDigits at ht
  rw [Bool.and_eq_true, decide_eq_true_eq, decide_eq_true_eq] at ht
  obtain ⟨hcycle, hday⟩ := dayNumber_day ht.1
  obtain ⟨hmonth, hmonth', hdate⟩ := monthDay_bounds (m := 1) (dayOfYear_lt (d := day t))
    (length_le_monthLengths _)
  have hlength := (monthDay_sum (m := 1) (dayOfYear_lt (d := day t))).2
  have htwelve : (monthLengths (yearOfCycle (day t))).length = 12 := rfl
  have hnonneg := Int.emod_nonneg t (b := nanosPerDay) (by decide)
  have hlt := Int.emod_lt_of_pos t (b := nanosPerDay) (by decide)
  have htime := readTime_timeText (n := (t % nanosPerDay).toNat) (by omega)
  have hsplit := Int.emod_add_mul_ediv t nanosPerDay
  have hoffset : readOffset offsetText = some 0 := by decide
  unfold toRfc3339 yearText parseFromRfc3339
  generalize monthDay 1 (monthLengths (yearOfCycle (day t))) (dayOfYear (day t)) = date at *
  have hyears (text : List Char) : readDigits 4 (digits 4 (year (day t)).toNat ++ text) =
      some ((year (day t)).toNat, text) := readDigits_digits (by omega) text
  have hmonths (text : List Char) : readDigits 2 (digits 2 date.1 ++ text) = some (date.1, text) :=
    readDigits_digits (by omega) text
  have hdays (text : List Char) :
      readDigits 2 (digits 2 (date.2 + 1) ++ text) = some (date.2 + 1, text) :=
    readDigits_digits (by omega) text
  have hseparator (text : List Char) : expect ['T', 't', ' '] ('T' :: text) = some text :=
    expect_cons List.mem_cons_self text
  simp only [if_pos ht, hyears, hmonths, hdays, expect_self, hseparator, htime, hoffset,
    Option.bind_eq_bind, Option.bind_some]
  rw [if_neg (by rw [hcycle]; omega), hday]
  unfold day
  have hinstant : (t / nanosPerDay + 719528 - 719528) * nanosPerDay +
      ((t % nanosPerDay).toNat : ℤ) - 0 * nanosPerMinute = t := by
    rw [Int.add_sub_cancel, Int.mul_comm, Int.zero_mul, Int.sub_zero, Int.toNat_of_nonneg hnonneg]
    omega
  rw [hinstant]

theorem yearText_signed {y : ℤ} (hy : ¬(0 ≤ y ∧ y ≤ 9999)) :
    ∃ sign text, sign.isDigit = false ∧ yearText y = sign :: text := by
  unfold yearText
  rw [if_neg hy]
  dsimp only
  split
  · exact ⟨'-', _, by decide, rfl⟩
  · exact ⟨'+', _, by decide, rfl⟩

/-- A signed year is written, and not read. -/
theorem parse_toRfc3339_iff : (parseFromRfc3339 (toRfc3339 t)).isSome ↔ hasFourDigits t = true := by
  constructor
  · intro hparsed
    by_contra hnot
    unfold hasFourDigits at hnot
    rw [Bool.and_eq_true, decide_eq_true_eq, decide_eq_true_eq] at hnot
    obtain ⟨sign, text, hsign, htext⟩ := yearText_signed hnot
    unfold toRfc3339 at hparsed
    dsimp only at hparsed
    rw [htext] at hparsed
    unfold parseFromRfc3339 readDigits at hparsed
    rw [List.cons_append, List.take_succ_cons, List.all_cons, hsign] at hparsed
    rw [if_neg (by simp)] at hparsed
    cases hparsed
  · intro ht
    rw [parse_toRfc3339 ht]
    rfl

end RoundTrip

section Bytes

/-- The bytes of a text -/
def utf8 (text : List Char) : List UInt8 := text.flatMap String.utf8EncodeChar

def IsAscii (text : List Char) : Prop := ∀ c ∈ text, c.toNat ≤ 127

variable {w n : ℕ} {a b text : List Char}

theorem IsAscii.append (ha : IsAscii a) (hb : IsAscii b) : IsAscii (a ++ b) := by
  intro c hc
  rcases List.mem_append.mp hc with hc | hc
  · exact ha c hc
  · exact hb c hc

theorem IsAscii.cons {c : Char} (hc : c.toNat ≤ 127) (ha : IsAscii a) : IsAscii (c :: a) :=
  List.forall_mem_cons.mpr ⟨hc, ha⟩

theorem digitChar_le (k : ℕ) : (Nat.digitChar k).toNat ≤ 127 := by
  rcases Nat.lt_or_ge k 16 with hlt | hge
  · have hall : ∀ k < 16, (Nat.digitChar k).toNat ≤ 127 := by decide
    exact hall k hlt
  · have hother {i : ℕ} (hi : i < 16) : k ≠ i := by omega
    have hstar : Nat.digitChar k = '*' := by
      simp (disch := decide) only [Nat.digitChar, hother, if_false]
    rw [hstar]
    decide

theorem isAscii_digits : IsAscii (digits w n) := by
  induction w generalizing n with
  | zero => exact fun c hc => absurd hc List.not_mem_nil
  | succ w ih =>
    exact .cons (digitChar_le _) ih

theorem isAscii_fractionText : IsAscii (fractionText n) := by
  unfold fractionText
  split
  · exact fun c hc => absurd hc List.not_mem_nil
  · repeat' split
    all_goals exact .cons (by decide) isAscii_digits

theorem isAscii_toRfc3339 {t : ℤ} (ht : hasFourDigits t = true) : IsAscii (toRfc3339 t) := by
  unfold hasFourDigits at ht
  rw [Bool.and_eq_true, decide_eq_true_eq, decide_eq_true_eq] at ht
  have hoffset : IsAscii offsetText := by
    simp [IsAscii, offsetText]
  unfold toRfc3339 yearText timeText minuteText secondText
  dsimp only
  rw [if_pos ht]
  refine .append isAscii_digits (.cons (by decide) (.append isAscii_digits (.cons (by decide)
    (.append isAscii_digits (.cons (by decide) (.append isAscii_digits (.cons (by decide)
      (.append isAscii_digits (.cons (by decide) (.append isAscii_digits ?_))))))))))
  exact .append isAscii_fractionText hoffset

/-- Texts of ASCII characters are in the order of their bytes. -/
theorem utf8_lt_iff (ha : IsAscii a) (hb : IsAscii b) : utf8 a < utf8 b ↔ a < b := by
  have hbyte {c : Char} (hc : c.toNat ≤ 127) (text : List Char) :
      utf8 (c :: text) = UInt8.ofNat c.toNat :: utf8 text := by
    have hone : String.utf8EncodeChar c = [UInt8.ofNat c.toNat] := if_pos hc
    unfold utf8
    rw [List.flatMap_cons, hone, List.singleton_append]
  induction a generalizing b with
  | nil =>
    cases b with
    | nil => exact ⟨fun h => absurd h (List.lt_irrefl _), fun h => absurd h (List.lt_irrefl _)⟩
    | cons d b =>
      rw [hbyte (hb d List.mem_cons_self)]
      exact ⟨fun _ => List.nil_lt_cons d b, fun _ => List.nil_lt_cons _ _⟩
  | cons c a ih =>
    have hc := ha c List.mem_cons_self
    rw [hbyte hc]
    cases b with
    | nil => exact ⟨fun h => absurd h (List.not_lt_nil _), fun h => absurd h (List.not_lt_nil _)⟩
    | cons d b =>
      have hd := hb d List.mem_cons_self
      have hrest : utf8 a < utf8 b ↔ a < b := ih (fun c hc => ha c (List.mem_cons_of_mem _ hc))
        (fun c hc => hb c (List.mem_cons_of_mem _ hc))
      have hvalue {k : ℕ} (hk : k ≤ 127) : (UInt8.ofNat k).toNat = k := by
        rw [UInt8.toNat_ofNat']
        omega
      have hless : UInt8.ofNat c.toNat < UInt8.ofNat d.toNat ↔ c < d := by
        rw [UInt8.lt_iff_toNat_lt, hvalue hc, hvalue hd]
        rfl
      have hsame : UInt8.ofNat c.toNat = UInt8.ofNat d.toNat ↔ c = d := by
        rw [← UInt8.toNat_inj, hvalue hc, hvalue hd]
        exact Char.toNat_inj
      rw [hbyte hd, List.cons_lt_cons_iff, List.cons_lt_cons_iff, hless, hsame, hrest]

end Bytes

end Rfc3339
