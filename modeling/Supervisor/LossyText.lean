import Mathlib.Data.List.Basic

namespace LossyText

/-- Whether a second byte goes on with a first one in a sequence of three or four bytes. -/
def mayFollow (first second : UInt8) : Bool :=
  if first = 0xe0 then 0xa0 ≤ second && second ≤ 0xbf
  else if first = 0xed then 0x80 ≤ second && second ≤ 0x9f
  else if first = 0xf0 then 0x90 ≤ second && second ≤ 0xbf
  else if first = 0xf4 then 0x80 ≤ second && second ≤ 0x8f
  else first < 0xf4 && 0x80 ≤ second && second ≤ 0xbf

/-- How many bytes are replaced together where no character begins. -/
def invalidLength (bytes : ByteArray) (i : ℕ) : ℕ :=
  let first := bytes.data.getD i 0
  let second := bytes.data.getD (i + 1) 0
  if first &&& 0xf0 = 0xe0 ∧ mayFollow first second = true then 2
  else if first &&& 0xf8 = 0xf0 ∧ mayFollow first second = true then
    if bytes.data.getD (i + 2) 0 &&& 0xc0 = 0x80 then 3 else 2
  else 1

def decodeFrom (bytes : ByteArray) : ℕ → ℕ → List Char
  | 0, _ => []
  | fuel + 1, i =>
    if i < bytes.size then
      match bytes.utf8DecodeChar? i with
      | some c => c :: decodeFrom bytes fuel (i + c.utf8Size)
      | none => '\uFFFD' :: decodeFrom bytes fuel (i + invalidLength bytes i)
    else []

/-- `String::from_utf8_lossy` -/
def fromUtf8Lossy (bytes : ByteArray) : List Char := decodeFrom bytes bytes.size 0

section Cut

variable {bytes head rest junk : ByteArray} {text : List Char} {c : Char}

theorem length_le_size_utf8Encode (text : List Char) : text.length ≤ text.utf8Encode.size := by
  induction text with
  | nil => exact Nat.zero_le _
  | cons c text ih =>
    rw [List.utf8Encode_cons, ByteArray.size_append, List.length_cons]
    have hpos : 0 < [c].utf8Encode.size := by simp [List.utf8Encode, Char.utf8Size_pos]
    omega

/-- The bytes of a character that come after its first one. -/
def Continues (junk : ByteArray) : Prop := ∀ b ∈ junk.data, ¬b.IsUTF8FirstByte

theorem decodeFrom_text {fuel : ℕ} (h : bytes = head ++ text.utf8Encode)
    (hfuel : text.length ≤ fuel) : decodeFrom bytes fuel head.size = text := by
  induction text generalizing head fuel with
  | nil =>
    have hend : ¬head.size < bytes.size := by
      rw [h, ByteArray.size_append, List.utf8Encode_nil, ByteArray.size_empty]
      omega
    cases fuel with
    | zero => rfl
    | succ fuel => rw [decodeFrom, if_neg hend]
  | cons c text ih =>
    obtain ⟨fuel, rfl⟩ : ∃ n, fuel = n + 1 := ⟨fuel - 1, by
      rw [List.length_cons] at hfuel
      omega⟩
    have hrest : bytes.extract head.size bytes.size = (c :: text).utf8Encode := by
      rw [h, ByteArray.size_append, ByteArray.extract_append_eq_right rfl rfl]
    have hchar : bytes.utf8DecodeChar? head.size = some c := by
      rw [ByteArray.utf8DecodeChar?_eq_utf8DecodeChar?_extract, hrest,
        List.utf8DecodeChar?_utf8Encode_cons]
    have hless : head.size < bytes.size := ByteArray.lt_size_of_isSome_utf8DecodeChar? (by
      rw [hchar]
      rfl)
    have hnext : bytes = (head ++ [c].utf8Encode) ++ text.utf8Encode := by
      rw [h, List.utf8Encode_cons, ByteArray.append_assoc]
    have hsize : (head ++ [c].utf8Encode).size = head.size + c.utf8Size := by
      simp [List.utf8Encode]
    have hlength : text.length ≤ fuel := Nat.le_of_succ_le_succ hfuel
    have htail := ih hnext hlength
    rw [hsize] at htail
    rw [decodeFrom, if_pos hless, hchar]
    exact congrArg (c :: ·) htail

/-- Each byte that continues a cut character is replaced. -/
theorem decodeFrom_continues {fuel i n : ℕ} (h : bytes = head ++ text.utf8Encode)
    (hi : i + n = head.size)
    (hjunk : ∀ j, i ≤ j → (hj : j < head.size) → ¬head[j].IsUTF8FirstByte)
    (hfuel : n + text.length ≤ fuel) :
    decodeFrom bytes fuel i = List.replicate n '�' ++ text := by
  induction n generalizing i fuel with
  | zero =>
    have hat : i = head.size := hi
    have hlength : text.length ≤ fuel := by omega
    rw [hat]
    exact decodeFrom_text h hlength
  | succ n ih =>
    obtain ⟨fuel, rfl⟩ : ∃ m, fuel = m + 1 := ⟨fuel - 1, by omega⟩
    have hhead : i < head.size := by omega
    have hless : i < bytes.size := by
      rw [h, ByteArray.size_append]
      omega
    have hbyte : bytes[i] = head[i] := by
      simp only [h]
      exact ByteArray.getElem_append_left hhead
    have hfirst := hjunk i (Nat.le_refl i) hhead
    rw [← hbyte] at hfirst
    have hnone : bytes.utf8DecodeChar? i = none := by
      rw [← Option.not_isSome_iff_eq_none]
      exact fun hsome => hfirst (ByteArray.isUTF8FirstByte_of_isSome_utf8DecodeChar? hsome)
    have hone : invalidLength bytes i = 1 := by
      have hget : bytes.data.getD i 0 = bytes[i] := by
        rw [Array.getD_eq_getD_getElem?, Array.getElem?_eq_getElem hless]
        rfl
      unfold UInt8.IsUTF8FirstByte at hfirst
      push Not at hfirst
      obtain ⟨-, -, hthree, hfour⟩ := hfirst
      simp only [invalidLength, hget]
      rw [if_neg fun h => hthree h.1, if_neg fun h => hfour h.1]
    have hbound : n + text.length ≤ fuel := by omega
    have hrest := ih (i := i + 1) (by omega) (fun j hj => hjunk j (by omega)) hbound
    rw [decodeFrom, if_pos hless, hnone, hone, List.replicate_succ]
    exact congrArg ('�' :: ·) hrest

theorem fromUtf8Lossy_continues (h : Continues junk) :
    fromUtf8Lossy (junk ++ text.utf8Encode) = List.replicate junk.size '�' ++ text := by
  refine decodeFrom_continues rfl (Nat.zero_add _) (fun j _ hj => h _ (Array.getElem_mem hj)) ?_
  rw [ByteArray.size_append]
  exact Nat.add_le_add_left (length_le_size_utf8Encode text) _

theorem fromUtf8Lossy_utf8Encode : fromUtf8Lossy text.utf8Encode = text := by
  have hall := @fromUtf8Lossy_continues .empty text (fun _ hb => absurd hb (by simp))
  rwa [ByteArray.empty_append, ByteArray.size_empty] at hall

end Cut

end LossyText
