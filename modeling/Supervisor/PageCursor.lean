import Supervisor.FormUrlencoded

namespace Supervisor

namespace PageCursor

/-- The bytes of a `str` -/
def utf8Bytes (text : String) : List UInt8 := text.toList.flatMap String.utf8EncodeChar

/-- `{byte:02x}` -/
def hexByte (byte : UInt8) : List Char :=
  [Nat.digitChar (byte.toNat / 16), Nat.digitChar (byte.toNat % 16)]

def encodePageKey (value : String) : String :=
  String.ofList ((utf8Bytes value).flatMap hexByte)

/-- `char::to_digit` of a byte, in base 16 -/
def toDigit (byte : UInt8) : Option ℕ := JsonText.hexValue (Char.ofNat byte.toNat)

def plusSign : UInt8 := 0x2b

/-- `u8::from_str_radix` of two bytes, in base 16: a number may have a plus sign. -/
def fromStrRadix (high low : UInt8) : Option UInt8 :=
  if high = plusSign then (toDigit low).map UInt8.ofNat
  else (toDigit high).bind fun n => (toDigit low).map fun m => UInt8.ofNat (16 * n + m)

/-- `str::is_char_boundary`, by the bytes from an index on -/
def isCharBoundary : List UInt8 → Bool
  | [] => true
  | byte :: _ => byte < 0x80 || 0xc0 ≤ byte

inductive DecodeFailure where
  | invalidRequest (message : String)
  /-- A slice of a `str` that does not end at a character. -/
  | panicked
deriving DecidableEq

/-- The numbers of the pairs of bytes, up to the first one that is none. -/
def decodePairs : List UInt8 → Except DecodeFailure (List UInt8)
  | high :: low :: rest =>
    if !isCharBoundary rest then .error .panicked
    else match fromStrRadix high low with
      | none => .error (.invalidRequest "invalid page cursor")
      | some byte => (decodePairs rest).map (byte :: ·)
  | [_] => .error .panicked
  | [] => .ok []

def decodePageKey : Option String → Except DecodeFailure (Option String)
  | none => .ok none
  | some value =>
    if (utf8Bytes value).length % 2 ≠ 0 then .error (.invalidRequest "invalid page cursor")
    else match decodePairs (utf8Bytes value) with
      | .error error => .error error
      | .ok bytes => match String.fromUTF8? bytes.toByteArray with
        | some text => .ok (some text)
        | none => .error (.invalidRequest "invalid page cursor")

/-- `u8::to_ascii_lowercase` -/
def toAsciiLowercase (byte : UInt8) : UInt8 :=
  if 0x41 ≤ byte ∧ byte ≤ 0x5a then byte + 0x20 else byte

/-- The same text, up to letter case. -/
def eqIgnoreAsciiCase (a b : String) : Prop :=
  (utf8Bytes a).map toAsciiLowercase = (utf8Bytes b).map toAsciiLowercase

section Bytes

theorem forall_byte {p : UInt8 → Prop} (h : ∀ n : Fin 256, p (UInt8.ofNat n.val)) (byte : UInt8) :
    p byte := by
  have hbyte := h ⟨byte.toNat, byte.toNat_lt⟩
  simpa using hbyte

def digitByte (n : ℕ) : UInt8 := UInt8.ofNat (Nat.digitChar n).toNat

theorem toDigit_eq_some : ∀ (byte : UInt8) (n : ℕ), toDigit byte = some n →
    n < 16 ∧ digitByte n = toAsciiLowercase byte ∧ byte < 0x80 ∧ byte ≠ plusSign := by
  have hall : ∀ byte : UInt8, (toDigit byte).all (fun n => n < 16 ∧
      digitByte n = toAsciiLowercase byte ∧ byte < 0x80 ∧ byte ≠ plusSign) = true :=
    forall_byte (by decide +kernel)
  intro byte n h
  have hbyte := hall byte
  rw [h] at hbyte
  exact of_decide_eq_true hbyte

theorem digitByte_spec : ∀ n < 16, toDigit (digitByte n) = some n ∧
    String.utf8EncodeChar (Nat.digitChar n) = [digitByte n] ∧
      toAsciiLowercase (digitByte n) = digitByte n ∧ digitByte n < 0x80 := by
  decide +kernel

theorem utf8Bytes_hexByte (byte : UInt8) :
    (hexByte byte).flatMap String.utf8EncodeChar =
      [digitByte (byte.toNat / 16), digitByte (byte.toNat % 16)] := by
  have hlt := byte.toNat_lt
  obtain ⟨-, hhigh, -⟩ := digitByte_spec (byte.toNat / 16) (by omega)
  obtain ⟨-, hlow, -⟩ := digitByte_spec (byte.toNat % 16) (by omega)
  rw [hexByte, List.flatMap_cons, List.flatMap_singleton, hhigh, hlow]
  rfl

theorem utf8Bytes_encodePageKey (value : String) :
    utf8Bytes (encodePageKey value) = (utf8Bytes value).flatMap fun byte =>
      [digitByte (byte.toNat / 16), digitByte (byte.toNat % 16)] := by
  unfold utf8Bytes encodePageKey
  rw [String.toList_ofList, List.flatMap_assoc]
  congr 1
  funext byte
  exact utf8Bytes_hexByte byte

end Bytes

section RoundTrip

theorem fromStrRadix_hexByte (byte : UInt8) :
    fromStrRadix (digitByte (byte.toNat / 16)) (digitByte (byte.toNat % 16)) = some byte := by
  have hlt := byte.toNat_lt
  obtain ⟨hhigh, -, -⟩ := digitByte_spec (byte.toNat / 16) (by omega)
  obtain ⟨hlow, -, -⟩ := digitByte_spec (byte.toNat % 16) (by omega)
  have hplus := (toDigit_eq_some _ _ hhigh).2.2.2
  rw [fromStrRadix, if_neg hplus, hhigh, hlow]
  show some (UInt8.ofNat (16 * (byte.toNat / 16) + byte.toNat % 16)) = some byte
  rw [Nat.div_add_mod, UInt8.ofNat_toNat]

theorem decodePairs_hexBytes (bytes : List UInt8) :
    decodePairs (bytes.flatMap fun byte =>
      [digitByte (byte.toNat / 16), digitByte (byte.toNat % 16)]) = .ok bytes := by
  induction bytes with
  | nil => rfl
  | cons byte bytes ih =>
    have hstart : isCharBoundary (bytes.flatMap fun byte =>
        [digitByte (byte.toNat / 16), digitByte (byte.toNat % 16)]) = true := by
      cases bytes with
      | nil => rfl
      | cons next bytes =>
        have hlt := next.toNat_lt
        obtain ⟨-, -, -, hascii⟩ := digitByte_spec (next.toNat / 16) (by omega)
        exact Bool.or_eq_true_iff.mpr (.inl (decide_eq_true hascii))
    rw [List.flatMap_cons, List.cons_append, List.cons_append, List.nil_append, decodePairs, hstart,
      fromStrRadix_hexByte]
    simp [ih, Except.map]

theorem fromUTF8_utf8Bytes (text : String) :
    String.fromUTF8? (utf8Bytes text).toByteArray = some text := by
  have hbytes : (utf8Bytes text).toByteArray = text.toByteArray := by
    calc (utf8Bytes text).toByteArray
        = text.toList.utf8Encode := rfl
      _ = text.toByteArray := by rw [← String.toByteArray_ofList, String.ofList_toList]
  rw [hbytes]
  unfold String.fromUTF8?
  rw [dif_pos text.isValidUTF8]
  rfl

theorem decode_encode (text : String) :
    decodePageKey (some (encodePageKey text)) = .ok (some text) := by
  have hlength : (utf8Bytes (encodePageKey text)).length % 2 = 0 := by
    rw [utf8Bytes_encodePageKey, List.length_flatMap]
    simp
  unfold decodePageKey
  dsimp only
  rw [if_neg (by rw [hlength]; simp), utf8Bytes_encodePageKey, decodePairs_hexBytes]
  dsimp only
  rw [fromUTF8_utf8Bytes]

end RoundTrip

section Cuts

/-- The first pair that is not a number ends inside a character. -/
def CutsCharacter : List UInt8 → Prop
  | high :: low :: rest =>
    if (fromStrRadix high low).isSome then CutsCharacter rest else isCharBoundary rest = false
  | _ => False

def HasPlus : List UInt8 → Prop
  | high :: _ :: rest => high = plusSign ∨ HasPlus rest
  | _ => False

/-- The pairs of bytes, as numbers -/
def numbers : List UInt8 → Option (List UInt8)
  | high :: low :: rest =>
    (fromStrRadix high low).bind fun byte => (numbers rest).map (byte :: ·)
  | [_] => none
  | [] => some []

variable {text : List Char} {bytes rest : List UInt8} {high low byte : UInt8}

theorem isCharBoundary_encoded (text : List Char) :
    isCharBoundary (text.flatMap String.utf8EncodeChar) = true := by
  cases text with
  | nil => rfl
  | cons c text =>
    have hfirst : ∀ byte : UInt8, byte.IsUTF8FirstByte →
        (decide (byte < 0x80) || decide (0xc0 ≤ byte)) = true :=
      forall_byte (by decide +kernel)
    have hlength : 0 < (String.utf8EncodeChar c).length := by
      rw [String.length_utf8EncodeChar]
      exact c.utf8Size_pos
    obtain ⟨byte, more, hencoded⟩ := List.exists_cons_of_length_pos hlength
    have hbyte : byte.IsUTF8FirstByte := by
      have hzero : (String.utf8EncodeChar c)[0].IsUTF8FirstByte :=
        UInt8.isUTF8FirstByte_getElem_utf8EncodeChar.mpr rfl
      simpa [hencoded] using hzero
    rw [List.flatMap_cons, hencoded]
    exact hfirst byte hbyte

/-- An ASCII byte is a character by itself. -/
theorem exists_ascii (h : text.flatMap String.utf8EncodeChar = byte :: rest) (hascii : byte < 0x80) :
    ∃ text' : List Char, rest = text'.flatMap String.utf8EncodeChar := by
  cases text with
  | nil => exact absurd h (by simp)
  | cons c text =>
    rw [List.flatMap_cons] at h
    have hlength : 0 < (String.utf8EncodeChar c).length := by
      rw [String.length_utf8EncodeChar]
      exact c.utf8Size_pos
    obtain ⟨first, more, hencoded⟩ := List.exists_cons_of_length_pos hlength
    rw [hencoded] at h
    obtain ⟨rfl, hrest⟩ := List.cons.inj h
    -- the count of the ASCII bytes tells the character from a longer one
    have hcount := FormUrlencoded.asciiBytes_utf8EncodeChar c
    have hpos : 0 < FormUrlencoded.asciiBytes (String.utf8EncodeChar c) := by
      rw [hencoded]
      exact List.countP_pos_iff.mpr ⟨first, List.mem_cons_self, decide_eq_true hascii⟩
    have hc : FormUrlencoded.isAscii c = true := by
      by_contra hnot
      rw [hcount, if_neg hnot] at hpos
      exact absurd hpos (Nat.lt_irrefl 0)
    have hsingle : (String.utf8EncodeChar c).length = 1 := by
      have hlt : c.toNat < 0x80 := of_decide_eq_true hc
      have hval : c.val.toNat = c.toNat := rfl
      unfold String.utf8EncodeChar
      dsimp only
      rw [if_pos (by rw [hval]; omega)]
      rfl
    rw [hencoded] at hsingle
    have hmore : more = [] := List.length_eq_zero_iff.mp (Nat.succ.inj hsingle)
    rw [hmore] at hrest
    exact ⟨text, hrest.symm⟩

theorem fromStrRadix_ascii (h : fromStrRadix high low = some byte) : high < 0x80 ∧ low < 0x80 := by
  unfold fromStrRadix at h
  split at h
  · rename_i hplus
    obtain ⟨n, hn, -⟩ := Option.map_eq_some_iff.mp h
    refine ⟨?_, (toDigit_eq_some _ _ hn).2.2.1⟩
    rw [hplus]
    decide
  · obtain ⟨n, hn, hm⟩ := Option.bind_eq_some_iff.mp h
    obtain ⟨m, hm, -⟩ := Option.map_eq_some_iff.mp hm
    exact ⟨(toDigit_eq_some _ _ hn).2.2.1, (toDigit_eq_some _ _ hm).2.2.1⟩

/-- The slices go wrong exactly at the first pair that is not a number. -/
theorem decodePairs_encoded (h : bytes = text.flatMap String.utf8EncodeChar)
    (heven : bytes.length % 2 = 0) :
    (decodePairs bytes = .error .panicked ↔ CutsCharacter bytes) ∧
      ∀ decoded, decodePairs bytes = .ok decoded ↔ numbers bytes = some decoded := by
  induction bytes using decodePairs.induct generalizing text with
  | case1 high low rest hcut =>
    rw [decodePairs, if_pos hcut, CutsCharacter, numbers]
    have hnone : fromStrRadix high low = none := by
      by_contra hsome
      obtain ⟨byte, hbyte⟩ := Option.ne_none_iff_exists'.mp hsome
      obtain ⟨hhigh, hlow⟩ := fromStrRadix_ascii hbyte
      obtain ⟨text', htext'⟩ := exists_ascii h.symm hhigh
      obtain ⟨text'', htext''⟩ := exists_ascii htext'.symm hlow
      rw [htext'', isCharBoundary_encoded] at hcut
      exact Bool.noConfusion hcut
    rw [hnone]
    simpa using hcut
  | case2 high low rest hwhole hnone =>
    rw [decodePairs, if_neg hwhole, CutsCharacter, numbers, hnone]
    simpa using hwhole
  | case3 high low rest hwhole byte hbyte ih =>
    obtain ⟨hhigh, hlow⟩ := fromStrRadix_ascii hbyte
    obtain ⟨text', htext'⟩ := exists_ascii h.symm hhigh
    obtain ⟨text'', htext''⟩ := exists_ascii htext'.symm hlow
    have heven' : rest.length % 2 = 0 := by
      simp only [List.length_cons] at heven
      omega
    obtain ⟨hcuts, hnumbers⟩ := ih htext'' heven'
    rw [decodePairs, if_neg hwhole, CutsCharacter, numbers, hbyte]
    dsimp only
    rw [if_pos (by simp), ← hcuts]
    constructor
    · cases decodePairs rest with
      | ok decoded => simp [Except.map]
      | error error => simp [Except.map]
    · intro decoded
      cases hrest : decodePairs rest with
      | ok tail =>
        have htail := (hnumbers tail).mp hrest
        simp [Except.map, htail]
      | error error =>
        have hnone : numbers rest = none := by
          by_contra hsome
          obtain ⟨tail, htail⟩ := Option.ne_none_iff_exists'.mp hsome
          cases hrest.symm.trans ((hnumbers tail).mpr htail)
        simp [Except.map, hnone]
  | case4 byte => exact absurd heven (by simp)
  | case5 => simp [decodePairs, CutsCharacter, numbers]

end Cuts

section Encoded

variable {bytes decoded : List UInt8} {high low byte : UInt8} {text value : String}

/-- A number without a plus sign is written with the same digits. -/
theorem fromStrRadix_digits (h : fromStrRadix high low = some byte) :
    [digitByte (byte.toNat / 16), digitByte (byte.toNat % 16)] =
        [toAsciiLowercase high, toAsciiLowercase low] ↔ high ≠ plusSign := by
  unfold fromStrRadix at h
  split at h
  · rename_i hplus
    obtain ⟨m, hm, rfl⟩ := Option.map_eq_some_iff.mp h
    obtain ⟨hlt, -⟩ := toDigit_eq_some _ _ hm
    have hnat : (UInt8.ofNat m).toNat = m := by
      rw [UInt8.toNat_ofNat', Nat.mod_eq_of_lt (by omega)]
    have hzero : m / 16 = 0 := Nat.div_eq_of_lt hlt
    have hne : digitByte 0 ≠ toAsciiLowercase plusSign := by decide
    rw [hnat, hzero, hplus]
    simp [hne]
  · rename_i hplus
    obtain ⟨n, hn, hmap⟩ := Option.bind_eq_some_iff.mp h
    obtain ⟨m, hm, rfl⟩ := Option.map_eq_some_iff.mp hmap
    obtain ⟨hnlt, hndigit, -⟩ := toDigit_eq_some _ _ hn
    obtain ⟨hmlt, hmdigit, -⟩ := toDigit_eq_some _ _ hm
    have hnat : (UInt8.ofNat (16 * n + m)).toNat = 16 * n + m := by
      rw [UInt8.toNat_ofNat', Nat.mod_eq_of_lt (by omega)]
    have hdiv : (16 * n + m) / 16 = n := by omega
    have hmod : (16 * n + m) % 16 = m := by omega
    rw [hnat, hdiv, hmod, hndigit, hmdigit]
    simp [hplus]

theorem numbers_digits (h : numbers bytes = some decoded) :
    (decoded.flatMap fun byte => [digitByte (byte.toNat / 16), digitByte (byte.toNat % 16)]) =
        bytes.map toAsciiLowercase ↔ ¬HasPlus bytes := by
  induction bytes using numbers.induct generalizing decoded with
  | case1 high low rest ih =>
    rw [numbers] at h
    obtain ⟨byte, hbyte, hrest⟩ := Option.bind_eq_some_iff.mp h
    obtain ⟨tail, htail, rfl⟩ := Option.map_eq_some_iff.mp hrest
    have hhead := fromStrRadix_digits hbyte
    have hmore := ih htail
    rw [HasPlus, not_or, ← ne_eq, ← hmore, ← hhead, List.flatMap_cons]
    simp only [List.cons_append, List.nil_append, List.map_cons, List.cons.injEq, and_true]
    rw [and_assoc]
  | case2 byte => cases h
  | case3 =>
    obtain rfl := Option.some.inj h
    simp [HasPlus]

theorem utf8Bytes_of_fromUTF8 (h : String.fromUTF8? decoded.toByteArray = some text) :
    utf8Bytes text = decoded := by
  unfold String.fromUTF8? at h
  split at h
  · rename_i hvalid
    have htext : text.toByteArray = decoded.toByteArray := by
      rw [← Option.some.inj h]
      rfl
    have hbytes : (utf8Bytes text).toByteArray = decoded.toByteArray := by
      rw [← htext]
      calc (utf8Bytes text).toByteArray
          = text.toList.utf8Encode := rfl
        _ = text.toByteArray := by rw [← String.toByteArray_ofList, String.ofList_toList]
    have hdata := congrArg (fun bytes : ByteArray => bytes.data.toList) hbytes
    simpa using hdata
  · cases h

/-- The encoding of what a cursor was decoded to. -/
theorem encode_of_numbers (h : numbers (utf8Bytes value) = some decoded)
    (htext : String.fromUTF8? decoded.toByteArray = some text) :
    eqIgnoreAsciiCase (encodePageKey text) value ↔ ¬HasPlus (utf8Bytes value) := by
  have hlower : (decoded.flatMap fun byte =>
      [digitByte (byte.toNat / 16), digitByte (byte.toNat % 16)]).map toAsciiLowercase =
        decoded.flatMap fun byte => [digitByte (byte.toNat / 16), digitByte (byte.toNat % 16)] := by
    rw [List.map_flatMap]
    congr 1
    funext byte
    have hlt := byte.toNat_lt
    obtain ⟨-, -, hhigh, -⟩ := digitByte_spec (byte.toNat / 16) (by omega)
    obtain ⟨-, -, hlow, -⟩ := digitByte_spec (byte.toNat % 16) (by omega)
    simp [hhigh, hlow]
  unfold eqIgnoreAsciiCase
  rw [utf8Bytes_encodePageKey, utf8Bytes_of_fromUTF8 htext, hlower]
  exact numbers_digits h

end Encoded

section Codec

/-- What a decoded cursor stands for, if it is one -/
def IsAccepted (value : String) : Prop :=
  ∃ decoded, numbers (utf8Bytes value) = some decoded ∧ decoded.toByteArray.IsValidUTF8

/-- A cursor is decoded, or refused, and it is the encoding of what it is decoded to. -/
def Decodes (value : String) : Prop :=
  decodePageKey (some value) ≠ .error .panicked ∧
    ∀ text, decodePageKey (some value) = .ok (some text) →
      eqIgnoreAsciiCase (encodePageKey text) value

theorem decodes_iff (value : String) : Decodes value ↔
    (utf8Bytes value).length % 2 = 1 ∨
      ¬CutsCharacter (utf8Bytes value) ∧ (IsAccepted value → ¬HasPlus (utf8Bytes value)) := by
  unfold Decodes decodePageKey
  by_cases hodd : (utf8Bytes value).length % 2 = 1
  · have hne : (utf8Bytes value).length % 2 ≠ 0 := by omega
    simp [hodd]
  · have heven : (utf8Bytes value).length % 2 = 0 := by omega
    obtain ⟨hcuts, hnumbers⟩ := @decodePairs_encoded value.toList (utf8Bytes value) rfl heven
    dsimp only
    rw [if_neg (by simp [heven]), ← hcuts]
    cases hpairs : decodePairs (utf8Bytes value) with
    | error error =>
      have hnot : ¬IsAccepted value := by
        rintro ⟨decoded, hdecoded, -⟩
        cases hpairs.symm.trans ((hnumbers decoded).mpr hdecoded)
      simp [hodd, hnot]
    | ok decoded =>
      have hdecoded := (hnumbers decoded).mp hpairs
      dsimp only
      cases htext : String.fromUTF8? decoded.toByteArray with
      | none =>
        have hnot : ¬IsAccepted value := by
          rintro ⟨decoded', hdecoded', hvalid⟩
          obtain rfl := Option.some.inj (hdecoded.symm.trans hdecoded')
          unfold String.fromUTF8? at htext
          rw [dif_pos hvalid] at htext
          cases htext
        simp [hodd, hnot]
      | some text =>
        have haccepted : IsAccepted value := by
          refine ⟨decoded, hdecoded, ?_⟩
          by_contra hinvalid
          unfold String.fromUTF8? at htext
          rw [dif_neg hinvalid] at htext
          cases htext
        simp [hodd, haccepted, encode_of_numbers hdecoded htext]

/-- Every key survives its encoding; a cursor from outside is decoded without a panic, and stands
for itself, exactly when no slice cuts a character and no number has a plus sign. -/
theorem page_cursor_codec (text value : String) :
    decodePageKey (some (encodePageKey text)) = .ok (some text) ∧
    (Decodes value ↔ (utf8Bytes value).length % 2 = 1 ∨
      ¬CutsCharacter (utf8Bytes value) ∧ (IsAccepted value → ¬HasPlus (utf8Bytes value))) :=
  ⟨decode_encode text, decodes_iff value⟩

/-- A character of two bytes at an odd place is cut; a plus sign goes missing. -/
theorem cursor_panics :
    decodePageKey (some "aéb") = .error .panicked ∧
    decodePageKey (some "+1") = .ok (some "\x01") ∧ encodePageKey "\x01" = "01" ∧
      ¬Decodes "aéb" ∧ ¬Decodes "+1" := by
  have hcut : decodePageKey (some "aéb") = .error .panicked := by decide +kernel
  have hplus : decodePageKey (some "+1") = .ok (some "\x01") := by decide +kernel
  have hdifferent : ¬eqIgnoreAsciiCase (encodePageKey "\x01") "+1" := by
    unfold eqIgnoreAsciiCase
    decide +kernel
  exact ⟨hcut, hplus, by decide +kernel, fun h => h.1 hcut, fun h => hdifferent (h.2 _ hplus)⟩

end Codec

end PageCursor

end Supervisor
