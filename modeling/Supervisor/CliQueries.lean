import Supervisor.FormUrlencoded
import Supervisor.ProcessDomain

namespace Supervisor

/-- The texts of dates: `to_rfc3339` of a date in UTC, and the reading of one. -/
structure DateText where
  toRfc3339 : Instant → List Char
  parse : List Char → Option Instant
  /-- A date in UTC ends in `+00:00`. -/
  offset : ∀ t, ∃ local_, toRfc3339 t = local_ ++ "+00:00".toList ∧
    ∀ c ∈ local_, c.isDigit = true ∨ c ∈ ['-', '+', ':', '.', 'T']
  /-- An offset has a sign, or is `Z`. -/
  signed : ∀ text, parse (text ++ " 00:00".toList) = none

section Client

def decimal (n : U64) : List Char := Nat.toDigits 10 n.val

/-- `log_path` -/
def logPath (dates : DateText) (path : List Char) (tail : U64) (since : Option Instant)
    (afterSequence : Option U64) : List Char :=
  let query := ["tail=".toList ++ decimal tail]
    ++ (since.map fun since => "since=".toList ++ dates.toRfc3339 since).toList
    ++ (afterSequence.map fun n => "after_sequence=".toList ++ decimal n).toList
  path ++ '?' :: ['&'].intercalate query

/-- `v.replace('|', "%7C")` -/
def replaceBar (v : List Char) : List Char :=
  v.flatMap fun c => if c = '|' then "%7C".toList else [c]

/-- What the four lists of the observability routes have in common. -/
def observabilityPath (resource : String) (cursor : Option (List Char)) (limit : U64) :
    List Char :=
  "/api/v1/observability/".toList ++ resource.toList ++ "?limit=".toList ++ decimal limit
    ++ (cursor.map fun v => "&cursor=".toList ++ replaceBar v).getD []

def observabilityEvents := observabilityPath "events"

def observabilityMetrics := observabilityPath "metrics"

def observabilityAlerts := observabilityPath "alerts"

def observabilityDeliveries := observabilityPath "deliveries"

end Client

section Server

structure LogQuery where
  tail : Option U64 := none
  since : Option Instant := none
  afterSequence : Option U64 := none
deriving DecidableEq

structure ObservabilityQuery where
  limit : Option U64 := none
  cursor : Option (List Char) := none
  source : Option (List Char) := none
  alertId : Option Uuid := none
deriving DecidableEq

def ofDigits (digits : List Char) : Option U64 :=
  if h : (digits ≠ [] ∧ digits.all Char.isDigit = true) ∧ Nat.ofDigitChars 10 digits 0 < 2^64 then
    some ⟨Nat.ofDigitChars 10 digits 0, h.2⟩
  else none

/-- `from_str` of an unsigned integer of 64 bits. -/
def parseUnsigned (text : List Char) : Option U64 :=
  ofDigits (match text with
    | '+' :: rest => rest
    | _ => text)

/-- The query of a path. -/
def queryOf (path : List Char) : List Char := (path.dropWhile (· ≠ '?')).drop 1

/-- An optional field. One that comes twice is an error, and so is one that cannot be read. -/
def queryField {α : Type} (parse : List Char → Option α) (name : String)
    (pairs : List (List Char × List Char)) : Option (Option α) :=
  match pairs.filter fun pair => pair.1 = name.toList with
  | [] => some none
  | [(_, value)] => (parse value).map some
  | _ => none

def LogQuery.decode (dates : DateText) (query : List Char) : Option LogQuery := do
  let pairs := FormUrlencoded.pairs query
  let tail ← queryField parseUnsigned "tail" pairs
  let since ← queryField dates.parse "since" pairs
  let afterSequence ← queryField parseUnsigned "after_sequence" pairs
  return { tail, since, afterSequence }

def ObservabilityQuery.decode (parseUuid : List Char → Option Uuid) (query : List Char) :
    Option ObservabilityQuery := do
  let pairs := FormUrlencoded.pairs query
  let limit ← queryField parseUnsigned "limit" pairs
  let cursor ← queryField some "cursor" pairs
  let source ← queryField some "source" pairs
  let alertId ← queryField parseUuid "alert_id" pairs
  return { limit, cursor, source, alertId }

end Server

/-- A cursor that stands for itself in a query. -/
structure PlainCursor (cursor : List Char) : Prop where
  noPlus : '+' ∉ cursor
  noAmpersand : '&' ∉ cursor
  noEscape : ¬ FormUrlencoded.HasEscape cursor

section Bars

theorem replaceBar_cons (c : Char) (rest : List Char) :
    replaceBar (c :: rest) = (if c = '|' then "%7C".toList else [c]) ++ replaceBar rest :=
  List.flatMap_cons

theorem replaceBar_cons_of_ne {c : Char} (h : c ≠ '|') (rest : List Char) :
    replaceBar (c :: rest) = c :: replaceBar rest := by
  rw [replaceBar_cons, if_neg h]
  rfl

theorem replaceBar_append (a b : List Char) : replaceBar (a ++ b) = replaceBar a ++ replaceBar b :=
  List.flatMap_append

theorem mem_replaceBar {c : Char} {v : List Char} (h : c ∈ replaceBar v) :
    c ∈ v ∨ c ∈ "%7C".toList := by
  obtain ⟨d, hd, hc⟩ := List.mem_flatMap.mp h
  split at hc
  · exact Or.inr hc
  · rw [List.mem_singleton] at hc
    exact Or.inl (hc ▸ hd)

/-- No bar is read as a digit, before or after it is replaced. -/
theorem escaped_replaceBar (rest : List Char) :
    FormUrlencoded.escaped (replaceBar rest) = FormUrlencoded.escaped rest := by
  match rest with
  | [] => rfl
  | [a] =>
    rw [replaceBar_cons]
    split
    · rfl
    · rfl
  | a :: b :: rest =>
    by_cases ha : a = '|'
    · rw [replaceBar_cons, if_pos ha, ha]
      rfl
    · rw [replaceBar_cons_of_ne ha]
      by_cases hb : b = '|'
      · -- the second place holds a percent sign where the bar was
        have hpercent : JsonText.hexValue '%' = none := by decide
        have hbar : JsonText.hexValue '|' = none := by decide
        rw [replaceBar_cons, if_pos hb, hb]
        show (JsonText.hexValue a).bind (fun _ => (JsonText.hexValue '%').map _) =
          (JsonText.hexValue a).bind (fun _ => (JsonText.hexValue '|').map _)
        rw [hpercent, hbar]
      · rw [replaceBar_cons_of_ne hb]
        rfl

theorem drop_replaceBar {rest : List Char} {byte : UInt8}
    (h : FormUrlencoded.escaped rest = some byte) :
    (replaceBar rest).drop 2 = replaceBar (rest.drop 2) := by
  have hbar : JsonText.hexValue '|' = none := by decide
  match rest with
  | [] => cases h
  | [_] => cases h
  | a :: b :: rest =>
    obtain ⟨high, hhigh, hlow⟩ := Option.bind_eq_some_iff.mp h
    obtain ⟨low, hlow, -⟩ := Option.map_eq_some_iff.mp hlow
    have ha : a ≠ '|' := by
      rintro rfl
      rw [hbar] at hhigh
      cases hhigh
    have hb : b ≠ '|' := by
      rintro rfl
      rw [hbar] at hlow
      cases hlow
    rw [replaceBar_cons_of_ne ha, replaceBar_cons_of_ne hb]
    rfl

theorem percentBytes_replaceBar (v : List Char) :
    FormUrlencoded.percentBytes (replaceBar v) = FormUrlencoded.percentBytes v := by
  induction hlength : v.length using Nat.strong_induction_on generalizing v with
  | _ n ih =>
    cases v with
    | nil => rfl
    | cons c rest =>
      rw [List.length_cons] at hlength
      by_cases hc : c = '|'
      · have hescaped : FormUrlencoded.escaped ('7' :: 'C' :: replaceBar rest) = some 0x7C := rfl
        have hbyte : String.utf8EncodeChar '|' = [0x7C] := by decide
        rw [replaceBar_cons, if_pos hc, hc]
        calc FormUrlencoded.percentBytes ('%' :: '7' :: 'C' :: replaceBar rest)
            = 0x7C :: FormUrlencoded.percentBytes (replaceBar rest) := by
              rw [FormUrlencoded.percentBytes_cons, if_pos rfl, hescaped]
              rfl
          _ = 0x7C :: FormUrlencoded.percentBytes rest := by rw [ih rest.length (by omega) _ rfl]
          _ = FormUrlencoded.percentBytes ('|' :: rest) := by
              rw [FormUrlencoded.percentBytes_cons, if_neg (by decide), hbyte]
              rfl
      · rw [replaceBar_cons_of_ne hc, FormUrlencoded.percentBytes_cons,
          FormUrlencoded.percentBytes_cons, escaped_replaceBar]
        cases hescape : if c = '%' then FormUrlencoded.escaped rest else none with
        | none =>
          dsimp only
          rw [ih rest.length (by omega) _ rfl]
        | some byte =>
          have hrest : FormUrlencoded.escaped rest = some byte := by
            split at hescape
            · exact hescape
            · cases hescape
          dsimp only
          rw [drop_replaceBar hrest,
            ih (rest.drop 2).length (by rw [List.length_drop]; omega) _ rfl]

/-- The bars of a cursor come through. -/
theorem decode_replaceBar (v : List Char) :
    FormUrlencoded.decode (replaceBar v) = FormUrlencoded.decode v := by
  have hmap : (replaceBar v).map FormUrlencoded.plusToSpace =
      replaceBar (v.map FormUrlencoded.plusToSpace) := by
    induction v with
    | nil => rfl
    | cons c rest ih =>
      have hbar : FormUrlencoded.plusToSpace c = '|' ↔ c = '|' := by
        unfold FormUrlencoded.plusToSpace
        split
        · rename_i hc
          subst hc
          decide
        · rfl
      rw [List.map_cons, replaceBar_cons, replaceBar_cons, List.map_append, ih]
      by_cases hc : c = '|'
      · rw [if_pos hc, if_pos (hbar.mpr hc)]
        rfl
      · rw [if_neg hc, if_neg (mt hbar.mp hc)]
        rfl
  unfold FormUrlencoded.decode
  rw [hmap, percentBytes_replaceBar]

end Bars

section Numbers

theorem digit_of_mem_decimal {n : U64} {c : Char} (h : c ∈ decimal n) : c.isDigit = true :=
  Nat.isDigit_of_mem_toDigits (by omega) (by omega) h

theorem ne_of_digit {c d : Char} (h : c.isDigit = true) (hd : d.isDigit = false) : c ≠ d := by
  rintro rfl
  rw [h] at hd
  cases hd

theorem not_mem_decimal {d : Char} (hd : d.isDigit = false) (n : U64) : d ∉ decimal n :=
  fun h => ne_of_digit (digit_of_mem_decimal h) hd rfl

theorem decode_decimal (n : U64) : FormUrlencoded.decode (decimal n) = decimal n :=
  FormUrlencoded.decode_of_plain (not_mem_decimal rfl n) (not_mem_decimal rfl n)

theorem parseUnsigned_decimal (n : U64) : parseUnsigned (decimal n) = some n := by
  have hne : decimal n ≠ [] := Nat.toDigits_ne_nil
  have hdigits : (match decimal n with
      | '+' :: rest => rest
      | _ => decimal n) = decimal n := by
    split
    · rename_i rest heq
      have hmem : '+' ∈ decimal n := by
        rw [heq]
        exact List.mem_cons_self
      exact absurd hmem (not_mem_decimal rfl n)
    · rfl
  have hall : (decimal n).all Char.isDigit = true :=
    List.all_eq_true.mpr fun _ hc => digit_of_mem_decimal hc
  have hvalue : Nat.ofDigitChars 10 (decimal n) 0 = n.val := Nat.ofDigitChars_ten_toDigits
  have hlt : Nat.ofDigitChars 10 (decimal n) 0 < 2^64 := by
    rw [hvalue]
    exact n.isLt
  unfold parseUnsigned
  rw [hdigits]
  unfold ofDigits
  rw [dif_pos ⟨⟨hne, hall⟩, hlt⟩]
  exact congrArg some (Fin.ext hvalue)

end Numbers

section Fields

variable {α : Type} {parse : List Char → Option α} {name : String}

theorem queryField_absent {pairs : List (List Char × List Char)}
    (h : ∀ pair ∈ pairs, pair.1 ≠ name.toList) : queryField parse name pairs = some none := by
  have hnil : pairs.filter (fun pair => pair.1 = name.toList) = [] := by
    rw [List.filter_eq_nil_iff]
    exact fun pair hpair hdec => h pair hpair (of_decide_eq_true hdec)
  unfold queryField
  rw [hnil]

theorem queryField_cons_of_ne {key : List Char} (h : key ≠ name.toList) (value : List Char)
    (pairs : List (List Char × List Char)) :
    queryField parse name ((key, value) :: pairs) = queryField parse name pairs := by
  unfold queryField
  rw [List.filter_cons_of_neg (by exact fun hdec => h (of_decide_eq_true hdec))]

theorem queryField_cons {pairs : List (List Char × List Char)} (value : List Char)
    (h : ∀ pair ∈ pairs, pair.1 ≠ name.toList) :
    queryField parse name ((name.toList, value) :: pairs) = (parse value).map some := by
  have hnil : pairs.filter (fun pair => pair.1 = name.toList) = [] := by
    rw [List.filter_eq_nil_iff]
    exact fun pair hpair hdec => h pair hpair (of_decide_eq_true hdec)
  unfold queryField
  rw [List.filter_cons_of_pos (by exact decide_eq_true rfl), hnil]

/-- A field that was read is the only one of its name. -/
theorem eq_of_queryField_eq_some {pairs : List (List Char × List Char)} {v value : List Char}
    (h : queryField some name pairs = some (some v)) (hmem : (name.toList, value) ∈ pairs) :
    v = value := by
  have hfilter : (name.toList, value) ∈ pairs.filter fun pair => pair.1 = name.toList :=
    List.mem_filter.mpr ⟨hmem, decide_eq_true rfl⟩
  unfold queryField at h
  split at h
  · cases h
  · rename_i first only heq
    rw [heq, List.mem_singleton] at hfilter
    cases h
    exact (Prod.mk.inj hfilter).2.symm
  · cases h

end Fields

section Queries

theorem queryOf_append {path : List Char} (h : '?' ∉ path) (query : List Char) :
    queryOf (path ++ '?' :: query) = query := by
  have hpath : ∀ c ∈ path, decide (c ≠ '?') = true := by
    intro c hc
    rw [decide_eq_true_iff]
    exact fun heq => h (heq ▸ hc)
  unfold queryOf
  rw [List.dropWhile_append_of_pos hpath, List.dropWhile_cons_of_neg (by decide)]
  rfl

theorem plus_mem_toRfc3339 (dates : DateText) (t : Instant) :
    ∃ before, dates.toRfc3339 t = before ++ "+00:00".toList ∧
      FormUrlencoded.decode (dates.toRfc3339 t) =
        before.map FormUrlencoded.plusToSpace ++ " 00:00".toList ∧
      '&' ∉ dates.toRfc3339 t := by
  obtain ⟨before, heq, hchars⟩ := dates.offset t
  have hmem (d : Char) (hd : d.isDigit = false) (hsign : d ∉ ['-', '+', ':', '.', 'T'])
      (hzone : d ∉ "+00:00".toList) : d ∉ dates.toRfc3339 t := by
    rw [heq, List.mem_append]
    rintro (hbefore | hafter)
    · rcases hchars d hbefore with hdigit | hother
      · exact ne_of_digit hdigit hd rfl
      · exact hsign hother
    · exact hzone hafter
  have hpercent : '%' ∉ dates.toRfc3339 t := hmem '%' rfl (by decide) (by decide)
  refine ⟨before, heq, ?_, hmem '&' rfl (by decide) (by decide)⟩
  have hescape : ¬ FormUrlencoded.HasEscape (dates.toRfc3339 t) := by
    rintro ⟨first, rest, hsplit, -⟩
    rw [hsplit] at hpercent
    exact hpercent (List.mem_append_right first List.mem_cons_self)
  rw [FormUrlencoded.decode_of_not_hasEscape hescape, heq, List.map_append]
  rfl

theorem parse_decode_toRfc3339 (dates : DateText) (t : Instant) :
    dates.parse (FormUrlencoded.decode (dates.toRfc3339 t)) = none := by
  obtain ⟨before, -, hdecode, -⟩ := plus_mem_toRfc3339 dates t
  rw [hdecode]
  exact dates.signed _

theorem pairs_logPath (dates : DateText) {path : List Char} (h : '?' ∉ path) (tail : U64)
    (since : Option Instant) (afterSequence : Option U64) :
    FormUrlencoded.pairs (queryOf (logPath dates path tail since afterSequence)) =
      ("tail".toList, decimal tail)
        :: ((since.map fun since =>
            ("since".toList, FormUrlencoded.decode (dates.toRfc3339 since))).toList
          ++ (afterSequence.map fun n => ("after_sequence".toList, decimal n)).toList) := by
  have htail : FormUrlencoded.pair ("tail=".toList ++ decimal tail) =
      ("tail".toList, decimal tail) := by
    show FormUrlencoded.pair ("tail".toList ++ '=' :: decimal tail) = _
    rw [FormUrlencoded.pair_append (by decide), decode_decimal,
      FormUrlencoded.decode_of_plain (by decide) (by decide)]
  have hsince (t : Instant) : FormUrlencoded.pair ("since=".toList ++ dates.toRfc3339 t) =
      ("since".toList, FormUrlencoded.decode (dates.toRfc3339 t)) := by
    show FormUrlencoded.pair ("since".toList ++ '=' :: dates.toRfc3339 t) = _
    have hname : FormUrlencoded.decode "since".toList = "since".toList :=
      FormUrlencoded.decode_of_plain (by decide) (by decide)
    rw [FormUrlencoded.pair_append (by decide), hname]
  have hafter (n : U64) : FormUrlencoded.pair ("after_sequence=".toList ++ decimal n) =
      ("after_sequence".toList, decimal n) := by
    show FormUrlencoded.pair ("after_sequence".toList ++ '=' :: decimal n) = _
    rw [FormUrlencoded.pair_append (by decide), decode_decimal,
      FormUrlencoded.decode_of_plain (by decide) (by decide)]
  unfold logPath
  rw [queryOf_append h, FormUrlencoded.pairs_intercalate]
  · rw [List.map_append, List.map_append, List.map_singleton, htail]
    cases since with
    | none =>
      cases afterSequence with
      | none => rfl
      | some n => exact congrArg (_ :: [·]) (hafter n)
    | some t =>
      cases afterSequence with
      | none => exact congrArg (_ :: [·]) (hsince t)
      | some n =>
        show _ :: FormUrlencoded.pair _ :: [FormUrlencoded.pair _] = _
        rw [hsince, hafter]
        rfl
  · exact List.append_ne_nil_of_left_ne_nil
      (List.append_ne_nil_of_left_ne_nil (List.cons_ne_nil _ _) _) _
  · intro piece hpiece
    have hname {name value : List Char} (hne : name ≠ []) (hand : '&' ∉ name)
        (hvalue : '&' ∉ value) : name ++ value ≠ [] ∧ '&' ∉ name ++ value := by
      refine ⟨List.append_ne_nil_of_left_ne_nil hne _, ?_⟩
      rw [List.mem_append]
      exact fun hmem => hmem.elim hand hvalue
    simp only [List.mem_append, List.mem_singleton, Option.mem_toList,
      Option.map_eq_some_iff] at hpiece
    rcases hpiece with (rfl | ⟨t, -, rfl⟩) | ⟨n, -, rfl⟩
    · exact hname (by decide) (by decide) (not_mem_decimal rfl tail)
    · obtain ⟨-, -, -, hand⟩ := plus_mem_toRfc3339 dates t
      exact hname (by decide) (by decide) hand
    · exact hname (by decide) (by decide) (not_mem_decimal rfl n)

/-- A request with `since` is refused, and one without is read as it was meant. -/
theorem LogQuery.decode_logPath (dates : DateText) {path : List Char} (h : '?' ∉ path)
    (tail : U64) (since : Option Instant) (afterSequence : Option U64) :
    LogQuery.decode dates (queryOf (logPath dates path tail since afterSequence)) =
      if since = none then some ⟨some tail, none, afterSequence⟩ else none := by
  have hafter : queryField parseUnsigned "after_sequence"
      (afterSequence.map fun n => ("after_sequence".toList, decimal n)).toList =
        some afterSequence := by
    cases afterSequence with
    | none => rfl
    | some n =>
      show queryField parseUnsigned "after_sequence" [("after_sequence".toList, decimal n)] = _
      rw [queryField_cons _ (fun pair hpair => absurd hpair List.not_mem_nil),
        parseUnsigned_decimal]
      rfl
  have hnames : ∀ pair ∈ (afterSequence.map fun n =>
      ("after_sequence".toList, decimal n)).toList, pair.1 = "after_sequence".toList := by
    intro pair hpair
    rw [Option.mem_toList, Option.map_eq_some_iff] at hpair
    obtain ⟨n, -, rfl⟩ := hpair
    rfl
  have hother {name : String} (hname : "after_sequence".toList ≠ name.toList) :
      ∀ pair ∈ (afterSequence.map fun n => ("after_sequence".toList, decimal n)).toList,
        pair.1 ≠ name.toList :=
    fun pair hpair => hnames pair hpair ▸ hname
  unfold LogQuery.decode
  dsimp only
  rw [pairs_logPath dates h]
  cases since with
  | none =>
    rw [if_pos rfl]
    show (do
      let tail ← queryField parseUnsigned "tail" (_ :: (afterSequence.map _).toList)
      let since ← queryField dates.parse "since" (_ :: (afterSequence.map _).toList)
      let afterSequence ← queryField parseUnsigned "after_sequence"
        (_ :: (afterSequence.map _).toList)
      some (LogQuery.mk tail since afterSequence)) = _
    rw [queryField_cons _ (hother (by decide)), queryField_cons_of_ne (by decide),
      queryField_cons_of_ne (by decide), queryField_absent (hother (by decide)), hafter,
      parseUnsigned_decimal]
    rfl
  | some t =>
    rw [if_neg (by simp)]
    show (do
      let tail ← queryField parseUnsigned "tail" (_ :: _ :: (afterSequence.map _).toList)
      let since ← queryField dates.parse "since" (_ :: _ :: (afterSequence.map _).toList)
      let afterSequence ← queryField parseUnsigned "after_sequence"
        (_ :: _ :: (afterSequence.map _).toList)
      some (LogQuery.mk tail since afterSequence)) = _
    have hsince : queryField dates.parse "since" (("tail".toList, decimal tail)
        :: ("since".toList, FormUrlencoded.decode (dates.toRfc3339 t))
        :: (afterSequence.map fun n => ("after_sequence".toList, decimal n)).toList) = none := by
      rw [queryField_cons_of_ne (by decide), queryField_cons _ (hother (by decide)),
        parse_decode_toRfc3339]
      rfl
    rw [hsince]
    apply Option.bind_eq_none_iff.mpr
    intro tail _
    rfl

theorem pair_limit (limit : U64) :
    FormUrlencoded.pair ("limit=".toList ++ decimal limit) = ("limit".toList, decimal limit) := by
  show FormUrlencoded.pair ("limit".toList ++ '=' :: decimal limit) = _
  rw [FormUrlencoded.pair_append (by decide), decode_decimal,
    FormUrlencoded.decode_of_plain (by decide) (by decide)]

theorem pair_cursor (v : List Char) : FormUrlencoded.pair ("cursor=".toList ++ replaceBar v) =
    ("cursor".toList, FormUrlencoded.decode v) := by
  have hname : FormUrlencoded.decode "cursor".toList = "cursor".toList :=
    FormUrlencoded.decode_of_plain (by decide) (by decide)
  show FormUrlencoded.pair ("cursor".toList ++ '=' :: replaceBar v) = _
  rw [FormUrlencoded.pair_append (by decide), decode_replaceBar, hname]

theorem queryOf_observabilityPath {resource : String} (h : '?' ∉ resource.toList)
    (cursor : Option (List Char)) (limit : U64) :
    queryOf (observabilityPath resource cursor limit) =
      ("limit=".toList ++ decimal limit)
        ++ (cursor.map fun v => '&' :: ("cursor=".toList ++ replaceBar v)).getD [] := by
  have hpath : '?' ∉ "/api/v1/observability/".toList ++ resource.toList := by
    rw [List.mem_append]
    rintro (hroot | hresource)
    · exact absurd hroot (by decide)
    · exact h hresource
  have hshape : observabilityPath resource cursor limit =
      ("/api/v1/observability/".toList ++ resource.toList) ++ '?' ::
        (("limit=".toList ++ decimal limit)
          ++ (cursor.map fun v => '&' :: ("cursor=".toList ++ replaceBar v)).getD []) := by
    unfold observabilityPath
    rw [List.append_assoc, List.append_assoc]
    rfl
  rw [hshape, queryOf_append hpath]

theorem ObservabilityQuery.decode_of_pairs (parseUuid : List Char → Option Uuid)
    {query : List Char} (limit : U64) (cursor : Option (List Char))
    (h : FormUrlencoded.pairs query = ("limit".toList, decimal limit)
      :: (cursor.map fun v => ("cursor".toList, v)).toList) :
    ObservabilityQuery.decode parseUuid query = some ⟨some limit, cursor, none, none⟩ := by
  unfold ObservabilityQuery.decode
  dsimp only
  rw [h]
  cases cursor with
  | none =>
    show (queryField parseUnsigned "limit" [_]).bind _ = _
    rw [queryField_cons _ (fun pair hpair => absurd hpair List.not_mem_nil),
      parseUnsigned_decimal]
    rfl
  | some v =>
    have hother : ∀ pair ∈ [("cursor".toList, v)], pair.1 ≠ "limit".toList := by
      intro pair hpair hname
      rw [List.mem_singleton.mp hpair] at hname
      have hne : "cursor".toList ≠ "limit".toList := by decide
      exact hne hname
    show (queryField parseUnsigned "limit" [_, ("cursor".toList, v)]).bind _ = _
    rw [queryField_cons _ hother, parseUnsigned_decimal]
    rfl

theorem ObservabilityQuery.cursor_of_decode {parseUuid : List Char → Option Uuid}
    {query : List Char} {decoded : ObservabilityQuery}
    (h : ObservabilityQuery.decode parseUuid query = some decoded) :
    queryField some "cursor" (FormUrlencoded.pairs query) = some decoded.cursor := by
  unfold ObservabilityQuery.decode at h
  obtain ⟨limit, -, h⟩ := Option.bind_eq_some_iff.mp h
  obtain ⟨cursor, hcursor, h⟩ := Option.bind_eq_some_iff.mp h
  obtain ⟨source, -, h⟩ := Option.bind_eq_some_iff.mp h
  obtain ⟨alertId, -, h⟩ := Option.bind_eq_some_iff.mp h
  cases h
  exact hcursor

theorem observabilityPath_decode_iff (parseUuid : List Char → Option Uuid) {resource : String}
    (h : '?' ∉ resource.toList) (cursor : Option (List Char)) (limit : U64) :
    ObservabilityQuery.decode parseUuid (queryOf (observabilityPath resource cursor limit)) =
        some ⟨some limit, cursor, none, none⟩ ↔
      ∀ text ∈ cursor, PlainCursor text := by
  have hfirst : '&' ∉ "limit=".toList ++ decimal limit := by
    rw [List.mem_append]
    rintro (hname | hdigits)
    · exact absurd hname (by decide)
    · exact not_mem_decimal rfl limit hdigits
  have hnonempty : "limit=".toList ++ decimal limit ≠ [] :=
    List.append_ne_nil_of_left_ne_nil (by decide) _
  rw [queryOf_observabilityPath h]
  cases cursor with
  | none =>
    have hpairs : FormUrlencoded.pairs ("limit=".toList ++ decimal limit ++ []) =
        [("limit".toList, decimal limit)] := by
      rw [List.append_nil, FormUrlencoded.pairs_singleton hnonempty hfirst, pair_limit]
    refine ⟨fun _ text htext => absurd htext (by simp), fun _ => ?_⟩
    exact ObservabilityQuery.decode_of_pairs parseUuid limit none hpairs
  | some v =>
    have hquery : FormUrlencoded.pairs ("limit=".toList ++ decimal limit
        ++ '&' :: ("cursor=".toList ++ replaceBar v)) =
          ("limit".toList, decimal limit)
            :: FormUrlencoded.pairs ("cursor=".toList ++ replaceBar v) := by
      rw [FormUrlencoded.pairs_append_cons hnonempty hfirst, pair_limit]
    have hname (a : List Char) : "cursor=".toList ++ replaceBar a ≠ [] :=
      List.append_ne_nil_of_left_ne_nil (by decide) _
    have hclean {a : List Char} (ha : '&' ∉ a) : '&' ∉ "cursor=".toList ++ replaceBar a := by
      rw [List.mem_append]
      rintro (hmem | hmem)
      · exact absurd hmem (by decide)
      · rcases mem_replaceBar hmem with hmem | hmem
        · exact ha hmem
        · exact absurd hmem (by decide)
    by_cases hand : '&' ∈ v
    · -- the server reads only what stands before the first ampersand
      obtain ⟨a, b, rfl, ha⟩ := List.eq_append_cons_of_mem hand
      refine ⟨fun hdecode => ?_, fun hplain => absurd hand (hplain _ rfl).noAmpersand⟩
      have hfield := ObservabilityQuery.cursor_of_decode hdecode
      have hmem : ("cursor".toList, FormUrlencoded.decode a) ∈
          FormUrlencoded.pairs ("limit=".toList ++ decimal limit
            ++ '&' :: ("cursor=".toList ++ replaceBar (a ++ '&' :: b))) := by
        rw [hquery, replaceBar_append, replaceBar_cons_of_ne (by decide), ← List.append_assoc,
          FormUrlencoded.pairs_append_cons (hname a) (hclean ha), pair_cursor]
        exact List.mem_cons_of_mem _ List.mem_cons_self
      have heq := eq_of_queryField_eq_some hfield hmem
      have hle : FormUrlencoded.ascii (a ++ '&' :: b) ≤ FormUrlencoded.ascii a := by
        rw [heq]
        exact FormUrlencoded.ascii_decode_le_ascii a
      have hlt : FormUrlencoded.ascii a < FormUrlencoded.ascii (a ++ '&' :: b) := by
        have hone : FormUrlencoded.ascii ('&' :: b) = FormUrlencoded.ascii b + 1 :=
          FormUrlencoded.ascii_cons '&' b
        have hsum : FormUrlencoded.ascii (a ++ '&' :: b) =
            FormUrlencoded.ascii a + FormUrlencoded.ascii ('&' :: b) := List.countP_append
        omega
      omega
    · have hpairs : FormUrlencoded.pairs ("limit=".toList ++ decimal limit
          ++ '&' :: ("cursor=".toList ++ replaceBar v)) =
            [("limit".toList, decimal limit), ("cursor".toList, FormUrlencoded.decode v)] := by
        rw [hquery, FormUrlencoded.pairs_singleton (hname v) (hclean hand), pair_cursor]
      have hdecode := ObservabilityQuery.decode_of_pairs parseUuid limit
        (some (FormUrlencoded.decode v)) hpairs
      show ObservabilityQuery.decode parseUuid ("limit=".toList ++ decimal limit
        ++ '&' :: ("cursor=".toList ++ replaceBar v)) = _ ↔ _
      rw [hdecode]
      constructor
      · intro heq text htext
        cases htext
        have hself : FormUrlencoded.decode v = v :=
          Option.some.inj (congrArg ObservabilityQuery.cursor (Option.some.inj heq))
        obtain ⟨hplus, hescape⟩ := FormUrlencoded.decode_eq_self_iff.mp hself
        exact ⟨hplus, hand, hescape⟩
      · intro hplain
        have hv := hplain v rfl
        rw [FormUrlencoded.decode_eq_self_iff.mpr ⟨hv.noPlus, hv.noEscape⟩]

/-- Dates of the first second of 1970 only, the others being cut to it. -/
def epochDates : DateText where
  toRfc3339 _ := "1970-01-01T00:00:00+00:00".toList
  parse text := if text = "1970-01-01T00:00:00+00:00".toList then some 0 else none
  offset _ := ⟨"1970-01-01T00:00:00".toList, by decide, by simp⟩
  signed text := by
    have hne : text ++ " 00:00".toList ≠ "1970-01-01T00:00:00+00:00".toList := by
      intro heq
      have hmem : ' ' ∈ text ++ " 00:00".toList := List.mem_append_right text (by decide)
      rw [heq] at hmem
      exact absurd hmem (by decide)
    exact if_neg hne

end Queries

end Supervisor
