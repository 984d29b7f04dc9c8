import Mathlib.Data.List.Lex
import Supervisor.DelimitedText

/-! The Gregorian calendar by the number of a day, and the texts of instants in UTC. For years of
four digits the texts are in the order of time; the instants count nanoseconds. -/
namespace Rfc3339

section Digits

/-- The last `w` decimal digits -/
def digits : ℕ → ℕ → List Char
  | 0, _ => []
  | w + 1, n => Nat.digitChar (n / 10^w) :: digits w (n % 10^w)

theorem digitChar_lt : ∀ a < 10, ∀ b < 10, a < b → Nat.digitChar a < Nat.digitChar b := by decide

theorem sign_lt_digitChar : ∀ a < 10, '+' < Nat.digitChar a ∧ '-' < Nat.digitChar a := by decide

theorem digits_lt {w a b : ℕ} (hab : a < b) (hb : b < 10^w) (x y : List Char) :
    digits w a ++ x < digits w b ++ y := by
  induction w generalizing a b with
  | zero => omega
  | succ w ih =>
    have hpow : 0 < 10^w := Nat.pow_pos (by decide)
    have hten : b / 10^w < 10 := Nat.div_lt_of_lt_mul (by rwa [← Nat.pow_succ])
    have hle : a / 10^w ≤ b / 10^w := Nat.div_le_div_right hab.le
    unfold digits
    rw [List.cons_append, List.cons_append, List.cons_lt_cons_iff]
    rcases hle.lt_or_eq with hlt | heq
    · exact .inl (digitChar_lt _ (hlt.trans hten) _ hten hlt)
    · have ha := Nat.div_add_mod a (10^w)
      have hb' := Nat.div_add_mod b (10^w)
      rw [heq] at ha ⊢
      exact .inr ⟨rfl, ih (by omega) (Nat.mod_lt b hpow)⟩

theorem field_lt {w a b : ℕ} {x y : List Char} (hab : a ≤ b) (hb : b < 10^w)
    (htail : a = b → x < y) : digits w a ++ x < digits w b ++ y := by
  rcases hab.lt_or_eq with hlt | heq
  · exact digits_lt hlt hb x y
  · rw [heq]
    exact List.append_left_lt (htail heq)

theorem digits_add {a b n : ℕ} (hn : n < 10^(a + b)) :
    digits (a + b) n = digits a (n / 10^b) ++ digits b (n % 10^b) := by
  induction a generalizing n with
  | zero =>
    rw [Nat.zero_add] at hn ⊢
    rw [Nat.mod_eq_of_lt hn]
    rfl
  | succ a ih =>
    have hpow : 10^(a + b) = 10^b * 10^a := by rw [Nat.add_comm, Nat.pow_add]
    have hhead : n / 10^b / 10^a = n / 10^(a + b) := by rw [Nat.div_div_eq_div_mul, hpow]
    have hmiddle : n / 10^b % 10^a = n % 10^(a + b) / 10^b := by
      rw [hpow, Nat.mod_mul_right_div_self]
    have hlast : n % 10^(a + b) % 10^b = n % 10^b := by
      rw [hpow, Nat.mod_mul_right_mod]
    have htail := ih (n := n % 10^(a + b)) (Nat.mod_lt n (Nat.pow_pos (by decide)))
    rw [hlast] at htail
    rw [Nat.succ_add]
    change Nat.digitChar (n / 10^(a + b)) :: digits (a + b) (n % 10^(a + b)) =
      Nat.digitChar (n / 10^b / 10^a) :: (digits a (n / 10^b % 10^a) ++ digits b (n % 10^b))
    rw [hhead, hmiddle, htail]

theorem sign_lt_digits {w n : ℕ} (hn : n < 10^(w + 1)) (c : Char) (hc : c = '+' ∨ c = '-')
    (x y : List Char) : c :: x < digits (w + 1) n ++ y := by
  have hten : n / 10^w < 10 := Nat.div_lt_of_lt_mul (by rwa [← Nat.pow_succ])
  have hsigns := sign_lt_digitChar _ hten
  unfold digits
  rw [List.cons_append, List.cons_lt_cons_iff]
  rcases hc with rfl | rfl
  · exact .inl hsigns.1
  · exact .inl hsigns.2

end Digits

section Calendar

def isLeap (y : ℕ) : Bool := y % 4 = 0 && (y % 100 ≠ 0 || y % 400 = 0)

/-- The days before the year `y`, from the year 0 on -/
def daysBefore (y : ℕ) : ℕ := 365 * y + (y + 3) / 4 - (y + 99) / 100 + (y + 399) / 400

abbrev daysPerCycle : ℕ := 146097

theorem daysBefore_succ (y : ℕ) :
    daysBefore (y + 1) = daysBefore y + if isLeap y then 366 else 365 := by
  have hfour : (y + 1 + 3) / 4 = (y + 3) / 4 + if y % 4 = 0 then 1 else 0 := by split <;> omega
  have hhundred : (y + 1 + 99) / 100 = (y + 99) / 100 + if y % 100 = 0 then 1 else 0 := by
    split <;> omega
  have hcentury : (y + 1 + 399) / 400 = (y + 399) / 400 + if y % 400 = 0 then 1 else 0 := by
    split <;> omega
  have hfew : (y + 99) / 100 ≤ 365 * y := by omega
  unfold daysBefore isLeap
  rw [hfour, hhundred, hcentury]
  by_cases h4 : y % 4 = 0
  · by_cases h100 : y % 100 = 0
    · by_cases h400 : y % 400 = 0
      · simp only [h4, h100, h400, if_true, ne_eq, not_true, decide_true, decide_false, Bool.or_true,
          Bool.and_true]
        omega
      · simp only [h4, h100, h400, if_true, if_false, ne_eq, not_true, decide_true, decide_false,
          Bool.or_false, Bool.and_false, Bool.false_eq_true]
        omega
    · have h400 : y % 400 ≠ 0 := by omega
      simp only [h4, h100, h400, if_true, if_false, ne_eq, not_false_eq_true, decide_true,
        Bool.true_or, Bool.and_true]
      omega
  · have h100 : y % 100 ≠ 0 := by omega
    have h400 : y % 400 ≠ 0 := by omega
    simp only [h4, h100, h400, if_false, decide_false, Bool.false_and, Bool.false_eq_true]
    omega

theorem daysBefore_strictMono : StrictMono daysBefore := by
  apply strictMono_nat_of_lt_succ
  intro y
  rw [daysBefore_succ]
  split
  · omega
  · omega

/-- The year of a day in a cycle of 400 years -/
def yearOf (n : ℕ) : ℕ := Nat.findGreatest (fun y => daysBefore y ≤ n) (400 * n / daysPerCycle + 1)

theorem yearOf_le (n : ℕ) : daysBefore (yearOf n) ≤ n :=
  Nat.findGreatest_spec (P := fun y => daysBefore y ≤ n) (Nat.zero_le _) (Nat.zero_le n)

theorem lt_yearOf (n : ℕ) : n < daysBefore (yearOf n + 1) := by
  by_contra hle
  rw [Nat.not_lt] at hle
  have hnot : ¬yearOf n + 1 ≤ 400 * n / daysPerCycle + 1 := fun hbound =>
    Nat.findGreatest_is_greatest (P := fun y => daysBefore y ≤ n) (Nat.lt_succ_self _) hbound hle
  unfold daysBefore at hle
  unfold daysPerCycle at hnot
  omega

theorem yearOf_mono {n n' : ℕ} (h : n ≤ n') : yearOf n ≤ yearOf n' := by
  by_contra hlt
  have hyears : daysBefore (yearOf n' + 1) ≤ daysBefore (yearOf n) :=
    daysBefore_strictMono.monotone (by omega)
  have hn := yearOf_le n
  have hn' := lt_yearOf n'
  omega

theorem yearOf_lt {n : ℕ} (h : n < daysPerCycle) : yearOf n < 400 := by
  by_contra hle
  have hyears : daysBefore 400 ≤ daysBefore (yearOf n) :=
    daysBefore_strictMono.monotone (by omega)
  have hcycle : daysBefore 400 = daysPerCycle := rfl
  have hn := yearOf_le n
  omega

def monthLengths (y : ℕ) : List ℕ :=
  [31, if isLeap y then 29 else 28, 31, 30, 31, 30, 31, 31, 30, 31, 30, 31]

theorem sum_monthLengths (y : ℕ) : (monthLengths y).sum = if isLeap y then 366 else 365 := by
  unfold monthLengths
  split
  · rfl
  · rfl

theorem length_le_monthLengths (y : ℕ) : ∀ len ∈ monthLengths y, len ≤ 31 := by
  unfold monthLengths
  split
  · decide
  · decide

/-- The month, counted from `m`, and the day in it, counted from 0 -/
def monthDay (m : ℕ) : List ℕ → ℕ → ℕ × ℕ
  | [], k => (m, k)
  | len :: rest, k => if k < len then (m, k) else monthDay (m + 1) rest (k - len)

theorem monthDay_bounds {m k : ℕ} {lengths : List ℕ} (hk : k < lengths.sum)
    (hlengths : ∀ len ∈ lengths, len ≤ 31) :
    m ≤ (monthDay m lengths k).1 ∧ (monthDay m lengths k).1 < m + lengths.length ∧
      (monthDay m lengths k).2 < 31 := by
  induction lengths generalizing m k with
  | nil => simp at hk
  | cons len rest ih =>
    have hlen := hlengths len List.mem_cons_self
    unfold monthDay
    rw [List.length_cons]
    split
    · dsimp only
      omega
    · rw [List.sum_cons] at hk
      have hrest := ih (m := m + 1) (k := k - len) (by omega) fun l hl =>
        hlengths l (List.mem_cons_of_mem _ hl)
      omega

theorem monthDay_ge (m k : ℕ) (lengths : List ℕ) : m ≤ (monthDay m lengths k).1 := by
  induction lengths generalizing m k with
  | nil => exact le_rfl
  | cons len rest ih =>
    unfold monthDay
    split
    · exact le_rfl
    · exact (Nat.le_succ m).trans (ih (m + 1) (k - len))

/-- A later day is in a later month, or later in the month. -/
theorem monthDay_lt {m k k' : ℕ} {lengths : List ℕ} (h : k < k') :
    (monthDay m lengths k).1 ≤ (monthDay m lengths k').1 ∧
      ((monthDay m lengths k).1 = (monthDay m lengths k').1 →
        (monthDay m lengths k).2 < (monthDay m lengths k').2) := by
  induction lengths generalizing m k k' with
  | nil => exact ⟨le_rfl, fun _ => h⟩
  | cons len rest ih =>
    unfold monthDay
    split
    · split
      · exact ⟨le_rfl, fun _ => h⟩
      · have hge := monthDay_ge (m + 1) (k' - len) rest
        dsimp only
        omega
    · rename_i hk
      rw [if_neg (by omega)]
      exact ih (by omega)

/-- The year of a day that is counted from the start of the year 0 -/
def year (d : ℤ) : ℤ := 400 * (d / daysPerCycle) + yearOf (d % daysPerCycle).toNat

def yearOfCycle (d : ℤ) : ℕ := yearOf (d % daysPerCycle).toNat

def dayOfYear (d : ℤ) : ℕ := (d % daysPerCycle).toNat - daysBefore (yearOfCycle d)

variable {d d' : ℤ}

theorem dayOfCycle_lt : (d % daysPerCycle).toNat < daysPerCycle := by
  have hlt := Int.emod_lt_of_pos d (b := daysPerCycle) (by decide)
  have hnonneg := Int.emod_nonneg d (b := daysPerCycle) (by decide)
  omega

theorem yearOfCycle_lt : yearOfCycle d < 400 := yearOf_lt dayOfCycle_lt

theorem dayOfYear_lt : dayOfYear d < (monthLengths (yearOfCycle d)).sum := by
  have hle := yearOf_le (d % daysPerCycle).toNat
  have hlt := lt_yearOf (d % daysPerCycle).toNat
  rw [daysBefore_succ] at hlt
  rw [sum_monthLengths]
  unfold dayOfYear yearOfCycle
  omega

/-- A later day is in a later year, or later in the year. -/
theorem year_of_lt (h : d < d') : year d ≤ year d' ∧
    (year d = year d' → yearOfCycle d = yearOfCycle d' ∧ dayOfYear d < dayOfYear d') := by
  have hcycles : d / daysPerCycle ≤ d' / daysPerCycle := Int.ediv_le_ediv (by decide) h.le
  have hyear : yearOfCycle d < 400 := yearOfCycle_lt
  have hyear' : yearOfCycle d' < 400 := yearOfCycle_lt
  have hd := Int.emod_add_mul_ediv d daysPerCycle
  have hd' := Int.emod_add_mul_ediv d' daysPerCycle
  have hnonneg := Int.emod_nonneg d (b := daysPerCycle) (by decide)
  unfold year
  change 400 * (d / daysPerCycle) + (yearOfCycle d : ℤ) ≤
      400 * (d' / daysPerCycle) + (yearOfCycle d' : ℤ) ∧
    (400 * (d / daysPerCycle) + (yearOfCycle d : ℤ) =
      400 * (d' / daysPerCycle) + (yearOfCycle d' : ℤ) → _)
  rcases hcycles.lt_or_eq with hlt | heq
  · constructor
    · omega
    · intro hsame
      omega
  · rw [heq] at hd ⊢
    have hless : (d % daysPerCycle).toNat < (d' % daysPerCycle).toNat := by omega
    have hmono : yearOfCycle d ≤ yearOfCycle d' := yearOf_mono hless.le
    constructor
    · omega
    · intro hsame
      have hyears : yearOfCycle d = yearOfCycle d' := by omega
      have hfirst := yearOf_le (d % daysPerCycle).toNat
      refine ⟨hyears, ?_⟩
      unfold dayOfYear
      rw [← hyears]
      change daysBefore (yearOfCycle d) ≤ _ at hfirst
      omega

end Calendar

section Texts

abbrev nanosPerSecond : ℕ := 10^9

abbrev nanosPerMinute : ℕ := 60 * nanosPerSecond

abbrev nanosPerHour : ℕ := 60 * nanosPerMinute

abbrev nanosPerDay : ℕ := 24 * nanosPerHour

/-- Without a fraction, or in three, six or nine digits -/
def fractionText (f : ℕ) : List Char :=
  if f = 0 then []
  else if f % 10^6 = 0 then '.' :: digits 3 (f / 10^6)
  else if f % 10^3 = 0 then '.' :: digits 6 (f / 10^3)
  else '.' :: digits 9 f

def offsetText : List Char := ['+', '0', '0', ':', '0', '0']

def secondText (n : ℕ) : List Char :=
  digits 2 (n / nanosPerSecond) ++ (fractionText (n % nanosPerSecond) ++ offsetText)

def minuteText (n : ℕ) : List Char :=
  digits 2 (n / nanosPerMinute) ++ ':' :: secondText (n % nanosPerMinute)

def timeText (n : ℕ) : List Char :=
  digits 2 (n / nanosPerHour) ++ ':' :: minuteText (n % nanosPerHour)

/-- A year that has not four digits is signed. -/
def yearText (y : ℤ) : List Char :=
  if 0 ≤ y ∧ y ≤ 9999 then digits 4 y.toNat
  else
    let text := Nat.toDigits 10 y.natAbs
    (if y < 0 then '-' else '+') :: (List.replicate (4 - text.length) '0' ++ text)

/-- The day of an instant, counted from the start of the year 0; the instants count from 1970. -/
def day (t : ℤ) : ℤ := t / nanosPerDay + 719528

def toRfc3339 (t : ℤ) : List Char :=
  let date := monthDay 1 (monthLengths (yearOfCycle (day t))) (dayOfYear (day t))
  yearText (year (day t)) ++ '-' :: (digits 2 date.1 ++ '-' :: (digits 2 (date.2 + 1) ++
    'T' :: timeText (t % nanosPerDay).toNat))

/-- What follows the year -/
def afterYear (t : ℤ) : List Char :=
  let date := monthDay 1 (monthLengths (yearOfCycle (day t))) (dayOfYear (day t))
  '-' :: (digits 2 date.1 ++ '-' :: (digits 2 (date.2 + 1) ++
    'T' :: timeText (t % nanosPerDay).toNat))

/-- The text for a reader: without the separators of the format, and with the name of the zone -/
def toDisplay (t : ℤ) : List Char :=
  let date := monthDay 1 (monthLengths (yearOfCycle (day t))) (dayOfYear (day t))
  let n := (t % nanosPerDay).toNat
  yearText (year (day t)) ++ '-' :: (digits 2 date.1 ++ '-' :: (digits 2 (date.2 + 1) ++
    ' ' :: (digits 2 (n / nanosPerHour) ++ ':' :: (digits 2 (n % nanosPerHour / nanosPerMinute) ++
      ':' :: (digits 2 (n % nanosPerMinute / nanosPerSecond) ++
        (fractionText (n % nanosPerSecond) ++ [' ', 'U', 'T', 'C']))))))

def hasFourDigits (t : ℤ) : Bool := 0 ≤ year (day t) && year (day t) ≤ 9999

example : toRfc3339 1784982896120000000 = "2026-07-25T12:34:56.120+00:00".toList := by decide +kernel

section Order

variable {n n' : ℕ}

/-- The last three digits of a fraction, if any -/
def thousandths (n : ℕ) : List Char := if n = 0 then offsetText else digits 3 n ++ offsetText

/-- The last six digits of a fraction, if any -/
def millionths (n : ℕ) : List Char :=
  if n = 0 then offsetText else digits 3 (n / 10^3) ++ thousandths (n % 10^3)

theorem thousandths_lt (h : n < n') (hn : n' < 10^3) : thousandths n < thousandths n' := by
  unfold thousandths
  rw [if_neg (show n' ≠ 0 by omega)]
  split
  · exact sign_lt_digits hn '+' (.inl rfl) _ _
  · exact digits_lt h hn _ _

theorem millionths_lt (h : n < n') (hn : n' < 10^6) : millionths n < millionths n' := by
  have hthree : n' / 10^3 < 10^3 := by omega
  unfold millionths
  rw [if_neg (show n' ≠ 0 by omega)]
  split
  · exact sign_lt_digits hthree '+' (.inl rfl) _ _
  · exact field_lt (by omega) hthree fun heq => thousandths_lt (by omega) (by omega)

theorem fractionText_append (hzero : n ≠ 0) (hn : n < 10^9) :
    fractionText n ++ offsetText = '.' :: (digits 3 (n / 10^6) ++ millionths (n % 10^6)) := by
  unfold fractionText millionths thousandths
  rw [if_neg hzero]
  have hmod : n % 10^6 % 10^3 = n % 10^3 := by omega
  have hdiv : n / 10^3 / 10^3 = n / 10^6 := by omega
  have hmid : n / 10^3 % 10^3 = n % 10^6 / 10^3 := by omega
  rw [hmod]
  split
  · rw [List.cons_append]
  · split
    · have hsix := digits_add (a := 3) (b := 3) (n := n / 10^3) (by omega)
      rw [hdiv, hmid] at hsix
      rw [hsix, List.cons_append, List.append_assoc]
    · have hnine := digits_add (a := 3) (b := 6) (n := n) (by omega)
      have hsix := digits_add (a := 3) (b := 3) (n := n % 10^6) (by omega)
      rw [hmod] at hsix
      rw [hnine, hsix, List.cons_append, List.append_assoc, List.append_assoc]

theorem fraction_lt (h : n < n') (hn : n' < 10^9) :
    fractionText n ++ offsetText < fractionText n' ++ offsetText := by
  rw [fractionText_append (show n' ≠ 0 by omega) hn]
  by_cases hzero : n = 0
  · rw [hzero]
    exact List.cons_lt_cons_iff.mpr (.inl (by decide))
  · rw [fractionText_append hzero (by omega), List.cons_lt_cons_self]
    exact field_lt (by omega) (by omega) fun heq => millionths_lt (by omega) (by omega)

theorem second_lt (h : n < n') (hn : n' < nanosPerMinute) : secondText n < secondText n' := by
  unfold nanosPerMinute nanosPerSecond at hn
  unfold secondText nanosPerSecond
  exact field_lt (by omega) (by omega) fun heq => fraction_lt (by omega) (by omega)

theorem minute_lt (h : n < n') (hn : n' < nanosPerHour) : minuteText n < minuteText n' := by
  unfold nanosPerHour nanosPerMinute nanosPerSecond at hn
  unfold minuteText
  refine field_lt (Nat.div_le_div_right h.le) (by unfold nanosPerMinute nanosPerSecond; omega) ?_
  intro heq
  rw [List.cons_lt_cons_self]
  unfold nanosPerMinute nanosPerSecond at heq ⊢
  exact second_lt (by omega) (by unfold nanosPerMinute nanosPerSecond; omega)

theorem time_lt (h : n < n') (hn : n' < nanosPerDay) : timeText n < timeText n' := by
  unfold nanosPerDay nanosPerHour nanosPerMinute nanosPerSecond at hn
  unfold timeText
  refine field_lt (Nat.div_le_div_right h.le)
    (by unfold nanosPerHour nanosPerMinute nanosPerSecond; omega) ?_
  intro heq
  rw [List.cons_lt_cons_self]
  unfold nanosPerHour nanosPerMinute nanosPerSecond at heq ⊢
  exact minute_lt (by omega) (by unfold nanosPerHour nanosPerMinute nanosPerSecond; omega)

variable {t t' : ℤ}

theorem day_le (h : t ≤ t') : day t ≤ day t' := by
  have hdays : t / nanosPerDay ≤ t' / nanosPerDay := Int.ediv_le_ediv (by decide) h
  unfold day
  omega

theorem year_le (h : t ≤ t') : year (day t) ≤ year (day t') := by
  rcases (day_le h).lt_or_eq with hbefore | hsame
  · exact (year_of_lt hbefore).1
  · rw [hsame]

theorem afterYear_lt (h : t < t') (hyears : year (day t) = year (day t')) :
    afterYear t < afterYear t' := by
  unfold afterYear
  dsimp only
  rcases (day_le h.le).lt_or_eq with hbefore | hsame
  · obtain ⟨hcycle, hdayOfYear⟩ := (year_of_lt hbefore).2 hyears
    have hbound := monthDay_bounds (m := 1) (dayOfYear_lt (d := day t')) (length_le_monthLengths _)
    have htwelve : (monthLengths (yearOfCycle (day t'))).length = 12 := rfl
    rw [← hcycle] at hbound htwelve
    obtain ⟨hmonths, hmonth⟩ := @monthDay_lt 1 _ _ (monthLengths (yearOfCycle (day t))) hdayOfYear
    rw [← hcycle, List.cons_lt_cons_self]
    refine field_lt hmonths (by omega) ?_
    intro hsameMonth
    rw [List.cons_lt_cons_self]
    exact digits_lt (Nat.succ_lt_succ (hmonth hsameMonth)) (by omega) _ _
  · have htod : t % nanosPerDay < t' % nanosPerDay := by
      have ht := Int.emod_add_mul_ediv t nanosPerDay
      have ht' := Int.emod_add_mul_ediv t' nanosPerDay
      unfold day at hsame
      have hquotients : t / nanosPerDay = t' / nanosPerDay := by omega
      rw [hquotients] at ht
      omega
    have hnonneg := Int.emod_nonneg t (b := nanosPerDay) (by decide)
    have hlt := Int.emod_lt_of_pos t' (b := nanosPerDay) (by decide)
    rw [hsame, List.cons_lt_cons_self]
    apply List.append_left_lt
    rw [List.cons_lt_cons_self]
    apply List.append_left_lt
    rw [List.cons_lt_cons_self]
    exact time_lt (by omega) (by omega)

theorem lt_of_lt (ht : hasFourDigits t = true) (ht' : hasFourDigits t' = true) (h : t < t') :
    toRfc3339 t < toRfc3339 t' := by
  unfold hasFourDigits at ht ht'
  rw [Bool.and_eq_true, decide_eq_true_eq, decide_eq_true_eq] at ht ht'
  change yearText (year (day t)) ++ afterYear t < yearText (year (day t')) ++ afterYear t'
  unfold yearText
  rw [if_pos ht, if_pos ht']
  exact field_lt (Int.toNat_le_toNat (year_le h.le)) (by omega) fun heq => afterYear_lt h (by omega)

theorem lt_iff (ht : hasFourDigits t = true) (ht' : hasFourDigits t' = true) :
    toRfc3339 t < toRfc3339 t' ↔ t < t' := by
  constructor
  · intro htext
    rcases lt_trichotomy t t' with h | h | h
    · exact h
    · rw [h] at htext
      exact absurd htext (List.lt_irrefl _)
    · exact absurd htext (List.lt_asymm (lt_of_lt ht' ht h))
  · exact lt_of_lt ht ht'

/-- A year of four digits comes after the signed ones. -/
theorem signed_lt (ht : hasFourDigits t = true) (hs : hasFourDigits t' = false) :
    toRfc3339 t' < toRfc3339 t := by
  unfold hasFourDigits at ht hs
  rw [Bool.and_eq_true, decide_eq_true_eq, decide_eq_true_eq] at ht
  have hnot : ¬(0 ≤ year (day t') ∧ year (day t') ≤ 9999) := by
    intro hfour
    simp [hfour] at hs
  unfold toRfc3339 yearText
  dsimp only
  rw [if_pos ht, if_neg hnot, List.cons_append]
  apply sign_lt_digits (by omega)
  split
  · exact .inr rfl
  · exact .inl rfl

/-- Of two signed years -/
theorem year_eq_of_signed (ht : hasFourDigits t = false) (ht' : hasFourDigits t' = false)
    (h : toRfc3339 t = toRfc3339 t') : year (day t) = year (day t') := by
  have hsigned {t : ℤ} (ht : hasFourDigits t = false) : toRfc3339 t =
      (if year (day t) < 0 then '-' else '+') ::
        (DelimitedText.padded 10 4 (year (day t)).natAbs ++ afterYear t) := by
    have hnot : ¬(0 ≤ year (day t) ∧ year (day t) ≤ 9999) := by
      intro hfour
      simp [hasFourDigits, hfour] at ht
    change yearText (year (day t)) ++ afterYear t = _
    unfold yearText
    rw [if_neg hnot]
    rfl
  rw [hsigned ht, hsigned ht'] at h
  obtain ⟨hsign, htext⟩ := List.cons.inj h
  obtain ⟨hdigits, -⟩ := DelimitedText.append_separator_inj
    (DelimitedText.not_mem_padded (by decide) (by decide) (.inr rfl))
    (DelimitedText.not_mem_padded (by decide) (by decide) (.inr rfl)) htext
  have habs := DelimitedText.padded_inj (by decide) (by decide) hdigits
  split at hsign
  · split at hsign
    · omega
    · exact absurd hsign (by decide)
  · split at hsign
    · exact absurd hsign (by decide)
    · omega

/-- No two instants have the same text. -/
theorem toRfc3339_injective : Function.Injective toRfc3339 := by
  intro t t' h
  have hdiffer {t t' : ℤ} (h : toRfc3339 t = toRfc3339 t')
      (ht : hasFourDigits t = true) (ht' : hasFourDigits t' = false) : False :=
    List.lt_irrefl _ (h ▸ signed_lt ht ht')
  have hless {t t' : ℤ} (h : toRfc3339 t = toRfc3339 t') : ¬t < t' := by
    intro hlt
    cases ht : hasFourDigits t with
    | true =>
      cases ht' : hasFourDigits t' with
      | true => exact List.lt_irrefl _ (h ▸ lt_of_lt ht ht' hlt)
      | false => exact hdiffer h ht ht'
    | false =>
      cases ht' : hasFourDigits t' with
      | true => exact hdiffer h.symm ht' ht
      | false =>
        -- the texts agree on the year, and differ behind it
        have hyears := year_eq_of_signed ht ht' h
        change yearText (year (day t)) ++ afterYear t = yearText (year (day t')) ++ afterYear t' at h
        rw [hyears, List.append_cancel_left_eq] at h
        exact List.lt_irrefl _ (h ▸ afterYear_lt hlt hyears)
  exact Int.le_antisymm (Int.not_lt.mp (hless h.symm)) (Int.not_lt.mp (hless h))

end Order

end Texts

end Rfc3339
