import Mathlib.Data.List.Basic
import Mathlib.Tactic.IntervalCases

namespace JsonText

inductive Value where
  | null
  | bool (b : Bool)
  | number (text : List Char)
  | string (text : List Char)
  | array (items : List Value)
  | object (members : List (List Char × Value))

namespace Value

/-- The last member of a key counts. -/
def get (key : List Char) : Value → Option Value
  | .object members => (members.reverse.find? fun member => member.1 = key).map Prod.snd
  | _ => none

def asString : Value → Option (List Char)
  | .string text => some text
  | _ => none

/-- A number without sign, point and exponent that fits into 64 bits. -/
def asU64 : Value → Option ℕ
  | .number text =>
    if text.all Char.isDigit ∧ Nat.ofDigitChars 10 text 0 < 2^64 then
      some (Nat.ofDigitChars 10 text 0)
    else none
  | _ => none

end Value

def isSpace (c : Char) : Bool := c = ' ' || c = '\t' || c = '\n' || c = '\r'

section Strings

/-- Where the reader is inside a string: `hex left value` has `left` digits of an escape still
to read. -/
inductive StringMode where
  | plain
  | backslash
  | hex (left value : ℕ)
  /-- After the first half of a surrogate pair the second one is due. -/
  | pair (high : ℕ)
  | pairU (high : ℕ)
  | pairHex (high left value : ℕ)
deriving DecidableEq

def hexValue (c : Char) : Option ℕ :=
  if c.isDigit then some (c.toNat - '0'.toNat)
  else if 'a' ≤ c ∧ c ≤ 'f' then some (c.toNat - 'a'.toNat + 10)
  else if 'A' ≤ c ∧ c ≤ 'F' then some (c.toNat - 'A'.toNat + 10)
  else none

def escapes : List (Char × Char) :=
  [('"', '"'), ('\\', '\\'), ('/', '/'), ('b', '\x08'), ('f', '\x0c'), ('n', '\n'), ('r', '\r'),
    ('t', '\t')]

/-- What a character does to a string that is being read. -/
inductive StringStep where
  | goes (mode : StringMode) (text : List Char)
  | closes
  | fails

def StringMode.step (mode : StringMode) (text : List Char) (c : Char) : StringStep :=
  match mode with
  | .plain =>
    if c = '"' then .closes
    else if c = '\\' then .goes .backslash text
    else if c.toNat < 0x20 then .fails
    else .goes .plain (text ++ [c])
  | .backslash =>
    if c = 'u' then .goes (.hex 4 0) text
    else match escapes.find? fun escape => escape.1 = c with
      | some (_, meant) => .goes .plain (text ++ [meant])
      | none => .fails
  | .hex left value =>
    match hexValue c with
    | none => .fails
    | some digit =>
      let value := value * 16 + digit
      if 1 < left then .goes (.hex (left - 1) value) text
      else if 0xd800 ≤ value ∧ value < 0xdc00 then .goes (.pair value) text
      else if 0xdc00 ≤ value ∧ value < 0xe000 then .fails
      else .goes .plain (text ++ [Char.ofNat value])
  | .pair high => if c = '\\' then .goes (.pairU high) text else .fails
  | .pairU high => if c = 'u' then .goes (.pairHex high 4 0) text else .fails
  | .pairHex high left value =>
    match hexValue c with
    | none => .fails
    | some digit =>
      let value := value * 16 + digit
      if 1 < left then .goes (.pairHex high (left - 1) value) text
      else if 0xdc00 ≤ value ∧ value < 0xe000 then
        .goes .plain (text ++ [Char.ofNat ((high - 0xd800) * 0x400 + (value - 0xdc00) + 0x10000)])
      else .fails

end Strings

section Numbers

/-- The part of a number that has been read last. -/
inductive NumberMode where
  | minus | zero | digits | point | fraction | exponent | exponentSign | exponentDigits
deriving DecidableEq

def NumberMode.complete : NumberMode → Bool
  | .zero | .digits | .fraction | .exponentDigits => true
  | _ => false

def NumberMode.step (mode : NumberMode) (c : Char) : Option NumberMode :=
  match mode with
  | .minus => if c = '0' then some .zero else if c.isDigit then some .digits else none
  | .zero =>
    if c = '.' then some .point else if c = 'e' ∨ c = 'E' then some .exponent else none
  | .digits =>
    if c.isDigit then some .digits
    else if c = '.' then some .point
    else if c = 'e' ∨ c = 'E' then some .exponent
    else none
  | .point => if c.isDigit then some .fraction else none
  | .fraction =>
    if c.isDigit then some .fraction else if c = 'e' ∨ c = 'E' then some .exponent else none
  | .exponent =>
    if c = '+' ∨ c = '-' then some .exponentSign
    else if c.isDigit then some .exponentDigits
    else none
  | .exponentSign | .exponentDigits => if c.isDigit then some .exponentDigits else none

end Numbers

inductive Literal where
  | null | true | false
deriving DecidableEq

def Literal.text : Literal → List Char
  | .null => ['n', 'u', 'l', 'l']
  | .true => ['t', 'r', 'u', 'e']
  | .false => ['f', 'a', 'l', 's', 'e']

def Literal.value : Literal → Value
  | .null => .null
  | .true => .bool Bool.true
  | .false => .bool Bool.false

/-- An array or an object that is still open; a `member` waits for the value of its key. -/
inductive Frame where
  | items (items : List Value)
  | members (members : List (List Char × Value))
  | member (members : List (List Char × Value)) (key : List Char)

inductive Mode where
  | value
  | firstItem
  | firstKey
  | key
  | colon
  | done (v : Value)
  | string (isKey : Bool) (mode : StringMode) (text : List Char)
  | literal (literal : Literal) (taken : ℕ)
  | number (mode : NumberMode) (text : List Char)

/-- The reader: what is open, innermost first, and what comes next. -/
structure Reader where
  stack : List Frame
  mode : Mode

/-- More than 127 arrays and objects inside one another are refused. -/
def depthLimit : ℕ := 127

namespace Reader

def startValue (stack : List Frame) (c : Char) : Option Reader :=
  if c = '{' then
    if stack.length < depthLimit then some ⟨.members [] :: stack, .firstKey⟩ else none
  else if c = '[' then
    if stack.length < depthLimit then some ⟨.items [] :: stack, .firstItem⟩ else none
  else if c = '"' then some ⟨stack, .string false .plain []⟩
  else if c = 'n' then some ⟨stack, .literal .null 1⟩
  else if c = 't' then some ⟨stack, .literal .true 1⟩
  else if c = 'f' then some ⟨stack, .literal .false 1⟩
  else if c = '-' then some ⟨stack, .number .minus [c]⟩
  else if c = '0' then some ⟨stack, .number .zero [c]⟩
  else if c.isDigit then some ⟨stack, .number .digits [c]⟩
  else none

/-- The character after a complete value. -/
def afterValue (stack : List Frame) (v : Value) (c : Char) : Option Reader :=
  if isSpace c then some ⟨stack, .done v⟩
  else match stack with
    | .items items :: rest =>
      if c = ',' then some ⟨.items (items ++ [v]) :: rest, .value⟩
      else if c = ']' then some ⟨rest, .done (.array (items ++ [v]))⟩
      else none
    | .member members key :: rest =>
      if c = ',' then some ⟨.members (members ++ [(key, v)]) :: rest, .key⟩
      else if c = '}' then some ⟨rest, .done (.object (members ++ [(key, v)]))⟩
      else none
    | _ => none

def step (r : Reader) (c : Char) : Option Reader :=
  match r.mode with
  | .value => if isSpace c then some r else startValue r.stack c
  | .firstItem =>
    if isSpace c then some r
    else if c = ']' then
      match r.stack with
      | .items items :: rest => some ⟨rest, .done (.array items)⟩
      | _ => none
    else startValue r.stack c
  | .firstKey =>
    if isSpace c then some r
    else if c = '}' then
      match r.stack with
      | .members members :: rest => some ⟨rest, .done (.object members)⟩
      | _ => none
    else if c = '"' then some ⟨r.stack, .string true .plain []⟩
    else none
  | .key =>
    if isSpace c then some r
    else if c = '"' then some ⟨r.stack, .string true .plain []⟩
    else none
  | .colon => if isSpace c then some r else if c = ':' then some ⟨r.stack, .value⟩ else none
  | .done v => afterValue r.stack v c
  | .string isKey mode text =>
    match mode.step text c with
    | .goes mode text => some ⟨r.stack, .string isKey mode text⟩
    | .closes =>
      if isKey then
        match r.stack with
        | .members members :: rest => some ⟨.member members text :: rest, .colon⟩
        | _ => none
      else some ⟨r.stack, .done (.string text)⟩
    | .fails => none
  | .literal literal taken =>
    if literal.text[taken]? = some c then
      if taken + 1 < literal.text.length then some ⟨r.stack, .literal literal (taken + 1)⟩
      else some ⟨r.stack, .done literal.value⟩
    else none
  | .number mode text =>
    match mode.step c with
    | some mode => some ⟨r.stack, .number mode (text ++ [c])⟩
    | none => if mode.complete then afterValue r.stack (.number text) c else none

def run (r : Reader) (text : List Char) : Option Reader := text.foldlM step r

/-- What has been read at the end of the text. -/
def finish (r : Reader) : Option Value :=
  match r.stack, r.mode with
  | [], .done v => some v
  | [], .number mode text => if mode.complete then some (.number text) else none
  | _, _ => none

end Reader

/-- Read a text that is one value. -/
def parse (text : List Char) : Option Value := (Reader.run ⟨[], .value⟩ text).bind Reader.finish

section Print

def escapeChar (c : Char) : List Char :=
  if c = '"' then ['\\', '"']
  else if c = '\\' then ['\\', '\\']
  else if c = '\x08' then ['\\', 'b']
  else if c = '\x0c' then ['\\', 'f']
  else if c = '\n' then ['\\', 'n']
  else if c = '\r' then ['\\', 'r']
  else if c = '\t' then ['\\', 't']
  else if c.toNat < 0x20 then
    ['\\', 'u', '0', '0', Nat.digitChar (c.toNat / 16), Nat.digitChar (c.toNat % 16)]
  else [c]

def printString (text : List Char) : List Char := '"' :: text.flatMap escapeChar ++ ['"']

/-- The values of a flat object. -/
inductive Scalar where
  | string (text : List Char)
  | natural (n : ℕ)

def Scalar.value : Scalar → Value
  | .string text => .string text
  | .natural n => .number (Nat.toDigits 10 n)

def Scalar.print : Scalar → List Char
  | .string text => printString text
  | .natural n => Nat.toDigits 10 n

def printMember (member : List Char × Scalar) : List Char :=
  printString member.1 ++ ':' :: member.2.print

def printMembers : List (List Char × Scalar) → List Char
  | [] => []
  | [member] => printMember member
  | member :: rest => printMember member ++ ',' :: printMembers rest

def printObject (members : List (List Char × Scalar)) : List Char :=
  '{' :: printMembers members ++ ['}']

/-- What the scalars of printed members become. -/
def values (members : List (List Char × Scalar)) : List (List Char × Value) :=
  members.map fun member => (member.1, member.2.value)

end Print

namespace Reader

variable {r r' : Reader} {stack rest : List Frame} {text : List Char}

@[simp] theorem run_nil : r.run [] = some r := rfl

theorem run_cons (c : Char) : r.run (c :: text) = (r.step c).bind fun r => r.run text := rfl

theorem run_append (text' : List Char) :
    r.run (text ++ text') = (r.run text).bind fun r => r.run text' :=
  List.foldlM_append

theorem run_control (isKey : Bool) {n : ℕ} (hn : n < 0x20) :
    run ⟨stack, .string isKey .plain text⟩
        ['\\', 'u', '0', '0', Nat.digitChar (n / 16), Nat.digitChar (n % 16)] =
      some ⟨stack, .string isKey .plain (text ++ [Char.ofNat n])⟩ := by
  interval_cases n <;> rfl

/-- Reading an escaped character. -/
theorem run_escapeChar (isKey : Bool) (c : Char) :
    run ⟨stack, .string isKey .plain text⟩ (escapeChar c) =
      some ⟨stack, .string isKey .plain (text ++ [c])⟩ := by
  unfold escapeChar
  split_ifs with hquote hbackslash hb hf hn hr ht hcontrol
  · rw [hquote]
    rfl
  · rw [hbackslash]
    rfl
  · rw [hb]
    rfl
  · rw [hf]
    rfl
  · rw [hn]
    rfl
  · rw [hr]
    rfl
  · rw [ht]
    rfl
  · rw [run_control isKey hcontrol, Char.ofNat_toNat]
  · rw [run_cons, step]
    simp [StringMode.step, hquote, hbackslash, hcontrol]

theorem run_escaped (isKey : Bool) (s : List Char) :
    run ⟨stack, .string isKey .plain text⟩ (s.flatMap escapeChar) =
      some ⟨stack, .string isKey .plain (text ++ s)⟩ := by
  induction s generalizing text with
  | nil => rw [List.flatMap_nil, run_nil, List.append_nil]
  | cons c s ih =>
    rw [List.flatMap_cons, run_append, run_escapeChar, Option.bind_some, ih, List.append_assoc]
    rfl

theorem run_printString (s : List Char) :
    run ⟨stack, .value⟩ (printString s) = some ⟨stack, .done (.string s)⟩ := by
  unfold printString
  rw [List.cons_append, run_cons]
  show run ⟨stack, .string false .plain []⟩ (s.flatMap escapeChar ++ ['"']) = _
  rw [run_append, run_escaped]
  rfl

theorem run_printKey {mode : Mode} (hmode : mode = .firstKey ∨ mode = .key)
    (members : List (List Char × Value)) (key : List Char) :
    run ⟨.members members :: rest, mode⟩ (printString key ++ [':']) =
      some ⟨.member members key :: rest, .value⟩ := by
  have hquote : step ⟨.members members :: rest, mode⟩ '"' =
      some ⟨.members members :: rest, .string true .plain []⟩ := by
    rcases hmode with rfl | rfl <;> rfl
  unfold printString
  rw [List.cons_append, List.cons_append, run_cons, hquote, Option.bind_some, List.append_assoc,
    run_append, run_escaped]
  rfl

theorem isDigit_digitChar {d : ℕ} (hd : d < 10) : (Nat.digitChar d).isDigit = true := by
  interval_cases d <;> rfl

theorem run_toDigits {n : ℕ} (hn : 0 < n) :
    run ⟨stack, .value⟩ (Nat.toDigits 10 n) = some ⟨stack, .number .digits (Nat.toDigits 10 n)⟩ := by
  induction n using Nat.strongRecOn with
  | ind n ih =>
    by_cases hsmall : n < 10
    · rw [Nat.toDigits_of_lt_base hsmall]
      interval_cases n <;> rfl
    · have hdiv : 0 < n / 10 := by omega
      rw [Nat.toDigits_of_base_le (by decide) (by omega), run_append,
        ih (n / 10) (by omega) hdiv, Option.bind_some, run_cons]
      have hdigit := isDigit_digitChar (Nat.mod_lt n (by decide : 0 < 10))
      simp [step, NumberMode.step, hdigit]

/-- Reading a scalar where a value is due, with the character that ends it. -/
theorem run_scalar (v : Scalar) {c : Char} (hc : c = ',' ∨ c = '}') :
    run ⟨stack, .value⟩ (v.print ++ [c]) = afterValue stack v.value c := by
  cases v with
  | string s =>
    show run ⟨stack, .value⟩ (printString s ++ [c]) = _
    rw [run_append, run_printString, Option.bind_some, run_cons]
    exact Option.bind_fun_some _
  | natural n =>
    show run ⟨stack, .value⟩ (Nat.toDigits 10 n ++ [c]) = _
    rcases Nat.eq_zero_or_pos n with rfl | hn
    · rcases hc with rfl | rfl
      · exact Option.bind_fun_some _
      · exact Option.bind_fun_some _
    · rw [run_append, run_toDigits hn, Option.bind_some, run_cons]
      rcases hc with rfl | rfl
      · exact Option.bind_fun_some _
      · exact Option.bind_fun_some _

/-- Reading the members of an object, with the brace that ends it. -/
theorem run_printMembers {mode : Mode} (hmode : mode = .firstKey ∨ mode = .key)
    (read : List (List Char × Value)) {members : List (List Char × Scalar)} (hne : members ≠ []) :
    run ⟨.members read :: rest, mode⟩ (printMembers members ++ ['}']) =
      some ⟨rest, .done (.object (read ++ values members))⟩ := by
  induction members generalizing read mode with
  | nil => exact absurd rfl hne
  | cons member members ih =>
    have hkey := @run_printKey rest _ hmode read member.1
    cases members with
    | nil =>
      have htext : printMembers [member] ++ ['}'] =
          (printString member.1 ++ [':']) ++ (member.2.print ++ ['}']) := by
        simp [printMembers, printMember]
      rw [htext, run_append, hkey, Option.bind_some, run_scalar _ (.inr rfl)]
      rfl
    | cons next members =>
      have htext : printMembers (member :: next :: members) ++ ['}'] =
          (printString member.1 ++ [':']) ++ ((member.2.print ++ [',']) ++
            (printMembers (next :: members) ++ ['}'])) := by
        simp [printMembers, printMember]
      rw [htext, run_append, hkey, Option.bind_some, run_append, run_scalar _ (.inl rfl)]
      show run ⟨.members (read ++ [(member.1, member.2.value)]) :: rest, .key⟩
        (printMembers (next :: members) ++ ['}']) = _
      rw [ih (.inr rfl) _ (by simp)]
      simp [values]

theorem run_printObject (hdepth : stack.length < depthLimit)
    {members : List (List Char × Scalar)} (hne : members ≠ []) :
    run ⟨stack, .value⟩ (printObject members) = some ⟨stack, .done (.object (values members))⟩ := by
  unfold printObject
  rw [List.cons_append, run_cons]
  have hopen : step ⟨stack, .value⟩ '{' = some ⟨.members [] :: stack, .firstKey⟩ := by
    show (if stack.length < depthLimit then _ else _) = _
    rw [if_pos hdepth]
  rw [hopen, Option.bind_some, run_printMembers (.inl rfl) [] hne]
  rfl

end Reader

theorem parse_printObject {members : List (List Char × Scalar)} (hne : members ≠ []) :
    parse (printObject members) = some (.object (values members)) := by
  unfold parse
  rw [Reader.run_printObject (by decide) hne]
  rfl

namespace Reader

variable {r r' : Reader} {stack : List Frame} {text : List Char} {v : Value}

/-- Inside an object or an array, or after the whole value. -/
def Begun (r : Reader) : Prop := r.stack = [] → ∃ v, r.mode = .done v

theorem Begun.of_open {frame : Frame} {mode : Mode} : Begun ⟨frame :: stack, mode⟩ := by
  intro h
  cases h

theorem Begun.of_done : Begun ⟨stack, .done v⟩ := fun _ => ⟨v, rfl⟩

theorem Begun.of_stack (hr : r.Begun) (hmode : ∀ v, r.mode ≠ .done v) {mode : Mode} :
    Begun ⟨r.stack, mode⟩ := by
  intro hstack
  obtain ⟨v, hv⟩ := hr hstack
  exact absurd hv (hmode v)

theorem startValue_begun {c : Char} (hstack : stack ≠ []) (h : startValue stack c = some r) :
    r.Begun := by
  have hsame {mode : Mode} : Begun ⟨stack, mode⟩ := fun hnil => absurd hnil hstack
  unfold startValue at h
  split_ifs at h <;> cases h
  · exact .of_open
  · exact .of_open
  all_goals exact hsame

theorem afterValue_begun {c : Char} (h : afterValue stack v c = some r) : r.Begun := by
  unfold afterValue at h
  split at h
  · cases h
    exact .of_done
  · split at h
    · split_ifs at h <;> cases h
      · exact .of_open
      · exact .of_done
    · split_ifs at h <;> cases h
      · exact .of_open
      · exact .of_done
    · cases h

theorem Begun.step {c : Char} (hr : r.Begun) (h : r.step c = some r') : r'.Begun := by
  obtain ⟨stack, mode⟩ := r
  have hstack (hmode : ∀ v, mode ≠ .done v) : stack ≠ [] := by
    intro hnil
    obtain ⟨v, hv⟩ := hr hnil
    exact hmode v hv
  cases mode with
  | value =>
    unfold Reader.step at h
    dsimp only at h
    split at h
    · cases h
      exact hr
    · exact startValue_begun (hstack (by simp)) h
  | firstItem =>
    unfold Reader.step at h
    dsimp only at h
    split_ifs at h
    · cases h
      exact hr
    · split at h
      · cases h
        exact .of_done
      · cases h
    · exact startValue_begun (hstack (by simp)) h
  | firstKey =>
    unfold Reader.step at h
    dsimp only at h
    split_ifs at h
    · cases h
      exact hr
    · split at h
      · cases h
        exact .of_done
      · cases h
    · cases h
      exact hr.of_stack (by simp)
  | key =>
    unfold Reader.step at h
    dsimp only at h
    split_ifs at h <;> cases h
    · exact hr
    · exact hr.of_stack (by simp)
  | colon =>
    unfold Reader.step at h
    dsimp only at h
    split_ifs at h <;> cases h
    · exact hr
    · exact hr.of_stack (by simp)
  | done v => exact afterValue_begun h
  | string isKey mode text =>
    unfold Reader.step at h
    dsimp only at h
    split at h
    · cases h
      exact hr.of_stack (by simp)
    · split at h
      · split at h
        · cases h
          exact .of_open
        · cases h
      · cases h
        exact .of_done
    · cases h
  | literal literal taken =>
    unfold Reader.step at h
    dsimp only at h
    split_ifs at h <;> cases h
    · exact hr.of_stack (by simp)
    · exact .of_done
  | number mode text =>
    unfold Reader.step at h
    dsimp only at h
    split at h
    · cases h
      exact hr.of_stack (by simp)
    · split at h
      · exact afterValue_begun h
      · cases h

theorem Begun.run (hr : r.Begun) (h : r.run text = some r') : r'.Begun := by
  induction text generalizing r with
  | nil =>
    cases h
    exact hr
  | cons c text ih =>
    obtain ⟨between, hstep, hrest⟩ := Option.bind_eq_some_iff.mp h
    exact ih (hr.step hstep) hrest

theorem begun_of_run_object (h : run ⟨[], .value⟩ ('{' :: text) = some r) : r.Begun := by
  have hopen : run ⟨[], .value⟩ ('{' :: text) = run ⟨[.members []], .firstKey⟩ text := rfl
  rw [hopen] at h
  exact Begun.run .of_open h

/-- After the whole value nothing but white space is read. -/
theorem isSpace_of_run_done (h : run ⟨[], .done v⟩ text = some r) : text.all isSpace = true := by
  induction text with
  | nil => rfl
  | cons c text ih =>
    obtain ⟨between, hstep, hrest⟩ := Option.bind_eq_some_iff.mp h
    have hstep : afterValue [] v c = some between := hstep
    unfold afterValue at hstep
    split at hstep
    · rename_i hspace
      cases hstep
      rw [List.all_cons, hspace, ih hrest]
      rfl
    · cases hstep

end Reader

section Control

def isControl (c : Char) : Bool := c.toNat < 0x20

theorem isControl_digitChar {d : ℕ} (hd : d < 16) : isControl (Nat.digitChar d) = false := by
  interval_cases d <;> rfl

theorem isControl_of_isDigit {c : Char} (hc : c.isDigit = true) : isControl c = false := by
  have hzero : '0'.toNat ≤ c.toNat := by
    simp only [Char.isDigit, Bool.and_eq_true, decide_eq_true_eq] at hc
    exact hc.1
  have hvalue : '0'.toNat = 48 := rfl
  rw [isControl, decide_eq_false_iff_not]
  omega

theorem isControl_of_mem_escapeChar {c c' : Char} (h : c' ∈ escapeChar c) :
    isControl c' = false := by
  have hmem {l : List Char} (hl : l.all (fun c => !isControl c) = true) (h : c' ∈ l) :
      isControl c' = false := by
    simpa using List.all_eq_true.mp hl c' h
  unfold escapeChar at h
  split_ifs at h with _ _ _ _ _ _ _ hcontrol
  · exact hmem (by decide) h
  · exact hmem (by decide) h
  · exact hmem (by decide) h
  · exact hmem (by decide) h
  · exact hmem (by decide) h
  · exact hmem (by decide) h
  · exact hmem (by decide) h
  · apply hmem _ h
    have hhigh := isControl_digitChar (by omega : c.toNat / 16 < 16)
    have hlow := isControl_digitChar (Nat.mod_lt c.toNat (by decide : 0 < 16))
    have hbackslash : isControl '\\' = false := rfl
    have hu : isControl 'u' = false := rfl
    have hzero : isControl '0' = false := rfl
    simp [hhigh, hlow, hbackslash, hu, hzero]
  · rw [List.mem_singleton.mp h]
    simpa [isControl] using hcontrol

theorem isControl_of_mem_printString {c : Char} {text : List Char} (h : c ∈ printString text) :
    isControl c = false := by
  unfold printString at h
  rcases List.mem_append.mp h with h | h
  · rcases List.mem_cons.mp h with rfl | h
    · rfl
    · obtain ⟨c', -, hc'⟩ := List.mem_flatMap.mp h
      exact isControl_of_mem_escapeChar hc'
  · rw [List.mem_singleton.mp h]
    rfl

theorem isControl_of_mem_print {c : Char} {v : Scalar} (h : c ∈ v.print) : isControl c = false := by
  cases v with
  | string text => exact isControl_of_mem_printString h
  | natural n => exact isControl_of_isDigit (Nat.isDigit_of_mem_toDigits (by decide) (by decide) h)

theorem isControl_of_mem_printMember {c : Char} {member : List Char × Scalar}
    (h : c ∈ printMember member) : isControl c = false := by
  unfold printMember at h
  rcases List.mem_append.mp h with h | h
  · exact isControl_of_mem_printString h
  · rcases List.mem_cons.mp h with rfl | h
    · rfl
    · exact isControl_of_mem_print h

theorem isControl_of_mem_printMembers {c : Char} {members : List (List Char × Scalar)}
    (h : c ∈ printMembers members) : isControl c = false := by
  induction members with
  | nil => cases h
  | cons member members ih =>
    cases members with
    | nil => exact isControl_of_mem_printMember h
    | cons next members =>
      rcases List.mem_append.mp h with h | h
      · exact isControl_of_mem_printMember h
      · rcases List.mem_cons.mp h with rfl | h
        · rfl
        · exact ih h

theorem isControl_of_mem_printObject {c : Char} {members : List (List Char × Scalar)}
    (h : c ∈ printObject members) : isControl c = false := by
  unfold printObject at h
  rcases List.mem_append.mp h with h | h
  · rcases List.mem_cons.mp h with rfl | h
    · rfl
    · exact isControl_of_mem_printMembers h
  · rw [List.mem_singleton.mp h]
    rfl

end Control

section Cut

variable {members members' : List (List Char × Scalar)} {text rest : List Char}

theorem run_of_append (h : text ++ rest = printObject members) (hne : members ≠ [])
    (htext : text ≠ []) : ∃ r, Reader.run ⟨[], .value⟩ text = some r ∧ r.Begun ∧
      r.run rest = some ⟨[], .done (.object (values members))⟩ := by
  have hrun := @Reader.run_printObject [] (by decide) _ hne
  rw [← h, Reader.run_append] at hrun
  obtain ⟨r, hr, hrest⟩ := Option.bind_eq_some_iff.mp hrun
  refine ⟨r, hr, ?_, hrest⟩
  cases text with
  | nil => exact absurd rfl htext
  | cons c text =>
    obtain ⟨rfl, -⟩ := List.cons.inj h
    exact Reader.begun_of_run_object hr

/-- A printed object without its end is refused. -/
theorem parse_cut (h : text ++ rest = printObject members) (hne : members ≠ [])
    (hrest : rest ≠ []) : parse text = none := by
  by_cases htext : text = []
  · rw [htext]
    rfl
  obtain ⟨r, hr, hbegun, hend⟩ := run_of_append h hne htext
  unfold parse
  rw [hr, Option.bind_some]
  -- the rest ends with a brace, which is not white space
  have hbrace : '}' ∈ rest := by
    have hlast := congrArg List.getLast? h
    rw [List.getLast?_append_of_ne_nil _ hrest, printObject, List.getLast?_append] at hlast
    exact List.mem_of_getLast? hlast
  obtain ⟨stack, mode⟩ := r
  cases stack with
  | cons frame stack => cases mode <;> rfl
  | nil =>
    obtain ⟨v, rfl⟩ := hbegun rfl
    have hspace := List.all_eq_true.mp (Reader.isSpace_of_run_done hend) '}' hbrace
    exact absurd hspace (by decide)

end Cut

end JsonText
