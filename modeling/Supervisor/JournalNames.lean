import Supervisor.ControlToken

namespace Supervisor

/-- The name of a file in the directory of the logs. -/
abbrev FileName := List Char

def hexName (value : String) : List Char := value.toUTF8.data.toList.flatMap hexByte

def legacySafeName (value : String) : List Char :=
  value.toList.map fun character =>
    if character.isAlphanum || character = '.' || character = '-' || character = '_' then character
    else '_'

/-- `process-{hex}`, with which all files of a process start -/
def processKey (name : String) : List Char := "process-".toList ++ hexName name

def activeFile (name : String) : FileName := processKey name ++ ".jsonl".toList

def manifestFile (name : String) : FileName := processKey name ++ ".manifest.json".toList

def segmentPrefix (name : String) : List Char := processKey name ++ ".".toList

/-- `format!("{start_sequence:020}")` -/
def paddedDigits (startSequence : ℕ) : List Char :=
  let digits := Nat.toDigits 10 startSequence
  List.replicate (20 - digits.length) '0' ++ digits

/-- `JournalPaths::segment` -/
def segmentFile (name : String) (startSequence : ℕ) : FileName :=
  segmentPrefix name ++ "segment-".toList ++ paddedDigits startSequence ++ ".jsonl".toList

/-- The file of the process in the scheme of earlier versions -/
def legacyFile (name : String) : FileName :=
  "process-".toList ++ legacySafeName name ++ ".jsonl".toList

/-- Whether `u64::from_str` takes the text for a number, be it too large. -/
def isNumeral (value : List Char) : Bool :=
  let digits := if value.head? = some '+' then value.tail else value
  !digits.isEmpty && digits.all Char.isDigit

/-- `u64::from_str` -/
def parseU64 (value : List Char) : Option ℕ :=
  let n := Nat.ofDigitChars 10 (value.filter Char.isDigit) 0
  if isNumeral value && n < 2^64 then some n else none

/-- What the name of a segment of the process has for a number. -/
def segmentValue (name : String) (file : FileName) : Option (List Char) :=
  ((file.dropPrefix? (segmentPrefix name)).bind fun value =>
    value.dropPrefix? "segment-".toList).bind fun value => value.dropSuffix? ".jsonl".toList

def segmentStart (name : String) (file : FileName) : Option ℕ :=
  (segmentValue name file).bind parseU64

def IsSegmentFile (name : String) (file : FileName) : Prop :=
  (segmentValue name file).any isNumeral = true

/-- The file belongs to the process in the scheme of this version. -/
def IsCurrentFile (name : String) (file : FileName) : Prop :=
  file = activeFile name ∨ IsSegmentFile name file

instance (name : String) (file : FileName) : Decidable (IsSegmentFile name file) :=
  inferInstanceAs (Decidable (_ = true))

instance (name : String) (file : FileName) : Decidable (IsCurrentFile name file) :=
  inferInstanceAs (Decidable (_ ∨ _))

section Hex

theorem digitChar_injective {a b : ℕ} (ha : a < 16) (hb : b < 16)
    (h : Nat.digitChar a = Nat.digitChar b) : a = b := by
  interval_cases a <;> interval_cases b <;> first | rfl | exact absurd h (by decide)

theorem digitChar_ne_dot {n : ℕ} (h : n < 16) : Nat.digitChar n ≠ '.' := by
  interval_cases n <;> decide

theorem hexByte_injective : Function.Injective hexByte := by
  intro a b h
  have ha : a.toNat < 256 := a.toNat_lt
  have hb : b.toNat < 256 := b.toNat_lt
  simp only [hexByte, List.cons.injEq, and_true] at h
  have hhigh := digitChar_injective (by omega) (by omega) h.1
  have hlow := digitChar_injective (by omega) (by omega) h.2
  exact UInt8.toNat_inj.mp (by omega)

theorem flatMap_hexByte_injective : Function.Injective fun bytes : List UInt8 =>
    bytes.flatMap hexByte := by
  intro xs
  induction xs with
  | nil =>
    intro ys h
    cases ys with
    | nil => rfl
    | cons y ys => simp [hexByte] at h
  | cons x xs ih =>
    intro ys h
    cases ys with
    | nil => simp [hexByte] at h
    | cons y ys =>
      simp only [List.flatMap_cons] at h
      obtain ⟨hhead, htail⟩ := List.append_inj h rfl
      rw [hexByte_injective hhead, ih htail]

theorem hexName_injective : Function.Injective hexName := by
  intro a b h
  have hbytes : a.toUTF8.data.toList = b.toUTF8.data.toList := flatMap_hexByte_injective h
  apply String.toByteArray_inj.mp
  exact ByteArray.ext (Array.toList_inj.mp hbytes)

theorem dot_notMem_hexName (name : String) : '.' ∉ hexName name := by
  intro hmem
  obtain ⟨byte, -, hdigit⟩ := List.mem_flatMap.mp hmem
  have hbyte : byte.toNat < 256 := byte.toNat_lt
  rcases List.mem_cons.mp hdigit with h | h
  · exact digitChar_ne_dot (by omega) h.symm
  · exact digitChar_ne_dot (by omega) (List.mem_singleton.mp h).symm

end Hex

section Files

/-- The first separator splits a list in one way. -/
theorem append_cons_inj {α : Type*} {c : α} {xs ys r r' : List α} (hx : c ∉ xs) (hy : c ∉ ys)
    (h : xs ++ c :: r = ys ++ c :: r') : xs = ys ∧ r = r' := by
  induction xs generalizing ys with
  | nil =>
    cases ys with
    | nil => exact ⟨rfl, (List.cons.inj h).2⟩
    | cons y ys => exact absurd (List.cons.inj h).1 fun heq => hy (heq ▸ List.mem_cons_self)
  | cons x xs ih =>
    cases ys with
    | nil => exact absurd (List.cons.inj h).1 fun heq => hx (heq ▸ List.mem_cons_self)
    | cons y ys =>
      obtain ⟨hhead, htail⟩ := List.cons.inj h
      obtain ⟨hxs, hrest⟩ := ih (fun hc => hx (List.mem_cons_of_mem _ hc))
        (fun hc => hy (List.mem_cons_of_mem _ hc)) htail
      exact ⟨by rw [hhead, hxs], hrest⟩

variable {name other : String} {file : FileName}

theorem processKey_inj {rest rest' : List Char}
    (h : processKey name ++ '.' :: rest = processKey other ++ '.' :: rest') :
    name = other ∧ rest = rest' := by
  unfold processKey at h
  rw [List.append_assoc, List.append_assoc] at h
  obtain ⟨hhex, hrest⟩ := append_cons_inj (dot_notMem_hexName name) (dot_notMem_hexName other)
    (List.append_cancel_left h)
  exact ⟨hexName_injective hhex, hrest⟩

theorem activeFile_eq : activeFile name = processKey name ++ '.' :: "jsonl".toList := rfl

theorem manifestFile_injective : Function.Injective manifestFile := by
  intro a b h
  exact (@processKey_inj _ _ ("manifest.json".toList) _ h).1

theorem segmentValue_eq_some {value : List Char} : segmentValue name file = some value ↔
    file = segmentPrefix name ++ ("segment-".toList ++ (value ++ ".jsonl".toList)) := by
  unfold segmentValue
  simp only [Option.bind_eq_some_iff, List.dropPrefix?_eq_some_iff, List.dropSuffix?_eq_some_iff,
    beq_iff_eq]
  constructor
  · rintro ⟨_, ⟨_, ⟨_, rfl, rfl⟩, _, rfl, rfl⟩, _, rfl, rfl⟩
    rfl
  · rintro rfl
    exact ⟨_, ⟨_, ⟨_, rfl, rfl⟩, _, rfl, rfl⟩, _, rfl, rfl⟩

theorem IsSegmentFile.eq (h : IsSegmentFile name file) : ∃ rest,
    file = processKey name ++ '.' :: 's' :: rest := by
  obtain ⟨value, hvalue, -⟩ := (Option.any_eq_true _ _).mp h
  refine ⟨"egment-".toList ++ (value ++ ".jsonl".toList), ?_⟩
  rw [segmentValue_eq_some.mp hvalue, segmentPrefix, List.append_assoc]
  rfl

theorem IsCurrentFile.unique (h : IsCurrentFile name file) (h' : IsCurrentFile other file) :
    name = other := by
  have hkey {a : String} (ha : IsCurrentFile a file) : ∃ rest,
      file = processKey a ++ '.' :: rest := by
    rcases ha with rfl | ha
    · exact ⟨_, activeFile_eq⟩
    · obtain ⟨rest, hrest⟩ := ha.eq
      exact ⟨_, hrest⟩
  obtain ⟨rest, hrest⟩ := hkey h
  obtain ⟨rest', hrest'⟩ := hkey h'
  exact (processKey_inj (hrest.symm.trans hrest')).1

theorem isSegmentFile_of_segmentStart {start : ℕ} (h : segmentStart name file = some start) :
    IsSegmentFile name file := by
  obtain ⟨value, hvalue, hparse⟩ := Option.bind_eq_some_iff.mp h
  apply (Option.any_eq_true _ _).mpr
  refine ⟨value, hvalue, ?_⟩
  obtain ⟨hcond, -⟩ := Option.ite_none_right_eq_some.mp hparse
  exact (Bool.and_eq_true_iff.mp hcond).1

theorem isNumeral_paddedDigits (startSequence : ℕ) :
    isNumeral (paddedDigits startSequence) = true := by
  have hdigit : ∀ c ∈ paddedDigits startSequence, c.isDigit = true := by
    intro c hc
    rcases List.mem_append.mp hc with hc | hc
    · rw [(List.mem_replicate.mp hc).2]
      rfl
    · exact Nat.isDigit_of_mem_toDigits (by decide) (by decide) hc
  have hne : paddedDigits startSequence ≠ [] :=
    List.append_ne_nil_of_right_ne_nil _ Nat.toDigits_ne_nil
  have hsign : (paddedDigits startSequence).head? ≠ some '+' := by
    intro hplus
    exact absurd (hdigit '+' (List.mem_of_mem_head? hplus)) (by decide)
  unfold isNumeral
  simp only [if_neg hsign, List.isEmpty_eq_false_iff.mpr hne, List.all_eq_true.mpr hdigit]
  rfl

theorem isSegmentFile_segmentFile (startSequence : ℕ) :
    IsSegmentFile name (segmentFile name startSequence) := by
  apply (Option.any_eq_true _ _).mpr
  refine ⟨paddedDigits startSequence, segmentValue_eq_some.mpr ?_,
    isNumeral_paddedDigits startSequence⟩
  unfold segmentFile
  simp only [List.append_assoc]

end Files

end Supervisor
