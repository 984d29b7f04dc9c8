import Supervisor.JsonText
import Supervisor.LossyText

/-! Decoding of `application/x-www-form-urlencoded` text, and what a decoded text can be. -/
namespace FormUrlencoded

/-- The byte that two hexadecimal digits at the front stand for. -/
def escaped : List Char → Option UInt8
  | h :: l :: _ =>
    (JsonText.hexValue h).bind fun high => (JsonText.hexValue l).map fun low =>
      UInt8.ofNat (16 * high + low)
  | _ => none

/-- Percent decoding to bytes; the first `skip` characters belong to an escape. -/
def percentBytesFrom : ℕ → List Char → List UInt8
  | _, [] => []
  | skip + 1, _ :: rest => percentBytesFrom skip rest
  | 0, c :: rest =>
    match if c = '%' then escaped rest else none with
    | some byte => byte :: percentBytesFrom 2 rest
    | none => String.utf8EncodeChar c ++ percentBytesFrom 0 rest

def percentBytes (text : List Char) : List UInt8 := percentBytesFrom 0 text

def plusToSpace (c : Char) : Char := if c = '+' then ' ' else c

/-- A name or a value of a pair. -/
def decode (text : List Char) : List Char :=
  LossyText.fromUtf8Lossy (percentBytes (text.map plusToSpace)).toByteArray

def pair (piece : List Char) : List Char × List Char :=
  (decode (piece.takeWhile (· ≠ '=')), decode ((piece.dropWhile (· ≠ '=')).drop 1))

def pairs (query : List Char) : List (List Char × List Char) :=
  ((query.splitOn '&').filter (· ≠ [])).map pair

/-- A percent sign with two hexadecimal digits after it. -/
def HasEscape (text : List Char) : Prop :=
  ∃ before rest, text = before ++ '%' :: rest ∧ (escaped rest).isSome = true

section Count

def isAscii (c : Char) : Bool := c.toNat < 0x80

/-- The number of ASCII characters. -/
def ascii (text : List Char) : ℕ := text.countP isAscii

def asciiBytes (bytes : List UInt8) : ℕ := bytes.countP fun b => b < 0x80

theorem asciiBytes_utf8EncodeChar (c : Char) :
    asciiBytes (String.utf8EncodeChar c) = if isAscii c then 1 else 0 := by
  have hval : c.val.toNat = c.toNat := rfl
  have hbyte (n : ℕ) (hlt : n < 256) : UInt8.ofNat n < 0x80 ↔ n < 0x80 := by
    rw [UInt8.lt_iff_toNat_lt, UInt8.toNat_ofNat', Nat.mod_eq_of_lt hlt]
    rfl
  have hhigh (n : ℕ) (hn : 0x80 ≤ n) (hlt : n < 256) : ¬ decide (UInt8.ofNat n < 0x80) = true := by
    rw [decide_eq_true_iff, hbyte n hlt]
    exact not_lt.mpr hn
  unfold String.utf8EncodeChar isAscii asciiBytes
  dsimp only
  rw [hval]
  split
  · rename_i hsmall
    have hlow : c.toNat < 0x80 := by omega
    rw [List.countP_singleton, decide_eq_true ((hbyte c.toNat (by omega)).mpr hlow),
      decide_eq_true hlow]
  · rename_i hlarge
    have hnot : ¬ decide (c.toNat < 0x80) = true := by
      rw [decide_eq_true_iff]
      omega
    rw [if_neg hnot, List.countP_eq_zero]
    intro b hb
    split at hb
    · simp only [List.mem_cons, List.not_mem_nil, or_false] at hb
      rcases hb with rfl | rfl
      · exact hhigh _ (by omega) (by omega)
      · exact hhigh _ (by omega) (by omega)
    · split at hb
      · simp only [List.mem_cons, List.not_mem_nil, or_false] at hb
        rcases hb with rfl | rfl | rfl
        · exact hhigh _ (by omega) (by omega)
        · exact hhigh _ (by omega) (by omega)
        · exact hhigh _ (by omega) (by omega)
      · simp only [List.mem_cons, List.not_mem_nil, or_false] at hb
        rcases hb with rfl | rfl | rfl | rfl
        · exact hhigh _ (by omega) (by omega)
        · exact hhigh _ (by omega) (by omega)
        · exact hhigh _ (by omega) (by omega)
        · exact hhigh _ (by omega) (by omega)

theorem ascii_cons (c : Char) (text : List Char) :
    ascii (c :: text) = ascii text + if isAscii c then 1 else 0 := List.countP_cons

theorem asciiBytes_append (a b : List UInt8) :
    asciiBytes (a ++ b) = asciiBytes a + asciiBytes b := List.countP_append

theorem asciiBytes_drop_le (bytes : List UInt8) (i n : ℕ) :
    asciiBytes (bytes.drop (i + n)) ≤ asciiBytes (bytes.drop i) := by
  rw [← List.drop_drop]
  exact (List.drop_sublist n _).countP_le

/-- What is decoded has no more ASCII characters than there are ASCII bytes. -/
theorem ascii_decodeFrom_le (bytes : ByteArray) (fuel i : ℕ) :
    ascii (LossyText.decodeFrom bytes fuel i) ≤ asciiBytes (bytes.data.toList.drop i) := by
  induction fuel generalizing i with
  | zero => exact Nat.zero_le _
  | succ fuel ih =>
    unfold LossyText.decodeFrom
    split
    · split
      · rename_i c hchar
        have hextract : (bytes.extract i bytes.size).data.toList = bytes.data.toList.drop i := by
          rw [ByteArray.data_extract, Array.toList_extract, List.extract_eq_take_drop]
          apply List.take_of_length_le
          exact (List.length_drop ..).le
        rw [ByteArray.utf8DecodeChar?_eq_utf8DecodeChar?_extract] at hchar
        obtain ⟨rest, hrest⟩ := ByteArray.exists_of_utf8DecodeChar?_eq_some hchar
        have hdrop : bytes.data.toList.drop i = String.utf8EncodeChar c ++ rest.data.toList := by
          rw [← hextract, hrest]
          simp
        have hnext : bytes.data.toList.drop (i + c.utf8Size) = rest.data.toList := by
          rw [← List.drop_drop, hdrop, ← String.length_utf8EncodeChar, List.drop_left]
        have hle := ih (i + c.utf8Size)
        rw [hnext] at hle
        rw [ascii_cons, hdrop, asciiBytes_append, asciiBytes_utf8EncodeChar]
        omega
      · have hle := (ih _).trans (asciiBytes_drop_le bytes.data.toList i
          (LossyText.invalidLength bytes i))
        rw [ascii_cons, if_neg (by decide)]
        exact hle
    · exact Nat.zero_le _

end Count

section Escapes

theorem percentBytesFrom_eq (skip : ℕ) (text : List Char) :
    percentBytesFrom skip text = percentBytes (text.drop skip) := by
  induction skip generalizing text with
  | zero => rfl
  | succ skip ih =>
    cases text with
    | nil => rfl
    | cons c rest => exact ih rest

theorem percentBytes_cons (c : Char) (rest : List Char) :
    percentBytes (c :: rest) =
      match if c = '%' then escaped rest else none with
      | some byte => byte :: percentBytes (rest.drop 2)
      | none => String.utf8EncodeChar c ++ percentBytes rest := by
  show percentBytesFrom 0 (c :: rest) = _
  unfold percentBytesFrom
  rw [percentBytesFrom_eq]
  rfl

/-- The two digits of an escape are ASCII characters. -/
theorem escaped_ascii {rest : List Char} {byte : UInt8} (h : escaped rest = some byte) :
    ascii rest = ascii (rest.drop 2) + 2 := by
  have hdigit (c : Char) (hc : (JsonText.hexValue c).isSome = true) : isAscii c = true := by
    have hle (low high : Char) (h : low ≤ c ∧ c ≤ high) (hhigh : isAscii high = true) :
        isAscii c = true := by
      have hnat : c.toNat ≤ high.toNat := h.2
      have hlt : high.toNat < 0x80 := of_decide_eq_true hhigh
      exact decide_eq_true (by omega)
    unfold JsonText.hexValue at hc
    split at hc
    · rename_i hdigit
      unfold Char.isDigit at hdigit
      obtain ⟨hlow, hhigh⟩ := Bool.and_eq_true_iff.mp hdigit
      exact hle '0' '9' ⟨of_decide_eq_true hlow, of_decide_eq_true hhigh⟩ rfl
    · split at hc
      · rename_i hlower
        exact hle 'a' 'f' hlower rfl
      · split at hc
        · rename_i hupper
          exact hle 'A' 'F' hupper rfl
        · cases hc
  match rest with
  | [] => cases h
  | [_] => cases h
  | a :: b :: rest =>
    obtain ⟨high, hhigh, hlow⟩ := Option.bind_eq_some_iff.mp h
    obtain ⟨low, hlow, -⟩ := Option.map_eq_some_iff.mp hlow
    rw [ascii_cons, ascii_cons, if_pos (hdigit a (by rw [hhigh]; rfl)),
      if_pos (hdigit b (by rw [hlow]; rfl))]
    rfl

/-- Percent decoding adds no ASCII character, and an escape takes at least one away. -/
theorem asciiBytes_percentBytes (text : List Char) :
    asciiBytes (percentBytes text) ≤ ascii text ∧
      (HasEscape text → asciiBytes (percentBytes text) < ascii text) := by
  induction hlength : text.length using Nat.strong_induction_on generalizing text with
  | _ n ih =>
    cases text with
    | nil =>
      refine ⟨Nat.le_refl 0, ?_⟩
      rintro ⟨before, rest, heq, -⟩
      exact absurd heq (by simp)
    | cons c rest =>
      rw [List.length_cons] at hlength
      rw [percentBytes_cons]
      cases hescape : if c = '%' then escaped rest else none with
      | some byte =>
        have hc : c = '%' := by
          by_contra hne
          rw [if_neg hne] at hescape
          cases hescape
        rw [if_pos hc] at hescape
        have htwo := escaped_ascii hescape
        have hdrop := (ih (rest.drop 2).length (by rw [List.length_drop]; omega) _ rfl).1
        have hone : asciiBytes (byte :: percentBytes (rest.drop 2)) ≤
            asciiBytes (percentBytes (rest.drop 2)) + 1 := by
          unfold asciiBytes
          rw [List.countP_cons]
          split <;> omega
        have hlt : asciiBytes (byte :: percentBytes (rest.drop 2)) < ascii (c :: rest) := by
          rw [ascii_cons]
          omega
        exact ⟨hlt.le, fun _ => hlt⟩
      | none =>
        have hrest := ih rest.length (by omega) rest rfl
        have hsum : asciiBytes (String.utf8EncodeChar c ++ percentBytes rest) =
            asciiBytes (percentBytes rest) + if isAscii c then 1 else 0 := by
          rw [asciiBytes_append, asciiBytes_utf8EncodeChar, Nat.add_comm]
        dsimp only
        rw [hsum, ascii_cons]
        refine ⟨by omega, ?_⟩
        rintro ⟨before, after, heq, hafter⟩
        cases before with
        | nil =>
          obtain ⟨hc, hr⟩ := List.cons.inj heq
          rw [if_pos hc, hr] at hescape
          rw [hescape] at hafter
          cases hafter
        | cons d before =>
          have hlt := hrest.2 ⟨before, after, (List.cons.inj heq).2, hafter⟩
          omega

/-- A text without an escape is decoded to its own bytes. -/
theorem percentBytes_eq_encode {text : List Char} (h : ¬ HasEscape text) :
    percentBytes text = text.flatMap String.utf8EncodeChar := by
  induction text with
  | nil => rfl
  | cons c rest ih =>
    have hrest : ¬ HasEscape rest := by
      rintro ⟨before, after, heq, hafter⟩
      exact h ⟨c :: before, after, congrArg (c :: ·) heq, hafter⟩
    have hnone : (if c = '%' then escaped rest else none) = none := by
      split
      · rename_i hc
        rw [Option.eq_none_iff_forall_ne_some]
        intro byte hbyte
        exact h ⟨[], rest, congrArg (· :: rest) hc, by rw [hbyte]; rfl⟩
      · rfl
    rw [percentBytes_cons, hnone, List.flatMap_cons, ih hrest]

end Escapes

section Decode

theorem hexValue_plusToSpace (c : Char) :
    JsonText.hexValue (plusToSpace c) = JsonText.hexValue c := by
  unfold plusToSpace
  split
  · rename_i hc
    subst hc
    decide
  · rfl

theorem escaped_plusToSpace (text : List Char) :
    escaped (text.map plusToSpace) = escaped text := by
  match text with
  | [] => rfl
  | [_] => rfl
  | a :: b :: rest =>
    show (JsonText.hexValue (plusToSpace a)).bind _ = _
    rw [hexValue_plusToSpace, hexValue_plusToSpace]
    rfl

theorem plusToSpace_eq_percent {c : Char} : plusToSpace c = '%' ↔ c = '%' := by
  unfold plusToSpace
  split
  · rename_i hc
    subst hc
    decide
  · rfl

theorem ascii_plusToSpace (text : List Char) : ascii (text.map plusToSpace) = ascii text := by
  unfold ascii
  rw [List.countP_map]
  apply List.countP_congr
  intro c _
  rw [Function.comp_apply]
  unfold plusToSpace
  split
  · rename_i hc
    subst hc
    decide
  · rfl

theorem hasEscape_plusToSpace (text : List Char) :
    HasEscape (text.map plusToSpace) ↔ HasEscape text := by
  constructor
  · rintro ⟨before, rest, heq, hrest⟩
    obtain ⟨before', tail, rfl, rfl, htail⟩ := List.map_eq_append_iff.mp heq
    obtain ⟨c, rest', rfl, hc, rfl⟩ := List.map_eq_cons_iff.mp htail
    rw [escaped_plusToSpace] at hrest
    exact ⟨before', rest', by rw [plusToSpace_eq_percent.mp hc], hrest⟩
  · rintro ⟨before, rest, rfl, hrest⟩
    refine ⟨before.map plusToSpace, rest.map plusToSpace, ?_, ?_⟩
    · rw [List.map_append, List.map_cons]
      rfl
    · rw [escaped_plusToSpace]
      exact hrest

theorem ascii_decode_le (text : List Char) :
    ascii (decode text) ≤ asciiBytes (percentBytes (text.map plusToSpace)) := by
  have hle := ascii_decodeFrom_le (percentBytes (text.map plusToSpace)).toByteArray
    (percentBytes (text.map plusToSpace)).toByteArray.size 0
  rw [List.drop_zero, List.data_toByteArray] at hle
  exact hle

theorem ascii_decode_le_ascii (text : List Char) : ascii (decode text) ≤ ascii text := by
  have hle := (ascii_decode_le text).trans (asciiBytes_percentBytes _).1
  rwa [ascii_plusToSpace] at hle

theorem decode_of_not_hasEscape {text : List Char} (h : ¬ HasEscape text) :
    decode text = text.map plusToSpace := by
  unfold decode
  rw [percentBytes_eq_encode (mt (hasEscape_plusToSpace text).mp h)]
  exact LossyText.fromUtf8Lossy_utf8Encode

/-- The texts that stand for themselves. -/
theorem decode_eq_self_iff {text : List Char} :
    decode text = text ↔ '+' ∉ text ∧ ¬ HasEscape text := by
  constructor
  · intro heq
    have hescape : ¬ HasEscape text := by
      intro hescape
      have hlt := (asciiBytes_percentBytes _).2 ((hasEscape_plusToSpace text).mpr hescape)
      have hle := ascii_decode_le text
      rw [ascii_plusToSpace] at hlt
      rw [heq] at hle
      omega
    refine ⟨?_, hescape⟩
    rw [decode_of_not_hasEscape hescape] at heq
    rw [← heq]
    intro hplus
    obtain ⟨c, -, hc⟩ := List.mem_map.mp hplus
    unfold plusToSpace at hc
    split at hc
    · cases hc
    · rename_i hne
      exact hne hc
  · rintro ⟨hplus, hescape⟩
    rw [decode_of_not_hasEscape hescape]
    conv_rhs => rw [← List.map_id text]
    apply List.map_congr_left
    intro c hc
    have hne : c ≠ '+' := fun h => hplus (h ▸ hc)
    exact if_neg hne

theorem decode_of_plain {text : List Char} (hplus : '+' ∉ text) (hpercent : '%' ∉ text) :
    decode text = text := by
  rw [decode_eq_self_iff]
  refine ⟨hplus, ?_⟩
  rintro ⟨before, rest, rfl, -⟩
  exact hpercent (List.mem_append_right before List.mem_cons_self)

end Decode

section Pairs

theorem pair_append {name : List Char} (h : '=' ∉ name) (value : List Char) :
    pair (name ++ '=' :: value) = (decode name, decode value) := by
  have hname : ∀ c ∈ name, decide (c ≠ '=') = true := by
    intro c hc
    rw [decide_eq_true_iff]
    exact fun heq => h (heq ▸ hc)
  have hstop : decide ('=' ≠ '=') = false := by decide
  unfold pair
  rw [List.takeWhile_append_of_pos hname, List.dropWhile_append_of_pos hname,
    List.takeWhile_cons_of_neg (by rw [hstop]; exact Bool.false_ne_true),
    List.dropWhile_cons_of_neg (by rw [hstop]; exact Bool.false_ne_true), List.append_nil]
  rfl

theorem pairs_intercalate {pieces : List (List Char)} (hne : pieces ≠ [])
    (h : ∀ piece ∈ pieces, piece ≠ [] ∧ '&' ∉ piece) :
    pairs (['&'].intercalate pieces) = pieces.map pair := by
  unfold pairs
  rw [List.splitOn_intercalate '&' (fun piece hpiece => (h piece hpiece).2) hne,
    List.filter_eq_self.mpr fun piece hpiece => decide_eq_true (h piece hpiece).1]

theorem pairs_singleton {piece : List Char} (hne : piece ≠ []) (h : '&' ∉ piece) :
    pairs piece = [pair piece] := by
  unfold pairs
  rw [List.splitOn_eq_singleton h, List.filter_cons_of_pos (by exact decide_eq_true hne)]
  rfl

theorem pairs_append_cons {first : List Char} (hne : first ≠ []) (h : '&' ∉ first)
    (rest : List Char) : pairs (first ++ '&' :: rest) = pair first :: pairs rest := by
  unfold pairs
  rw [List.splitOn_append_cons_self_of_not_mem h, List.filter_cons_of_pos (by exact decide_eq_true hne),
    List.map_cons]

end Pairs

end FormUrlencoded
