import Supervisor.JobDomain
import Supervisor.JsonText

namespace Supervisor

inductive LogStream where
  | stdout | stderr | system
deriving DecidableEq, Repr

/-- `stream_name` -/
def streamName : LogStream → List Char
  | .stdout => "stdout".toList
  | .stderr => "stderr".toList
  | .system => "system".toList

def parseStream (value : List Char) : LogStream :=
  if value = "stderr".toList then .stderr
  else if value = "system".toList then .system
  else .stdout

theorem parseStream_streamName (stream : LogStream) : parseStream (streamName stream) = stream := by
  cases stream <;> rfl

structure LogLine where
  sequence : ℕ
  timestamp : Instant
  stream : LogStream
  line : String
deriving DecidableEq, Repr

inductive LogError where
  | storage (message : String)
  | sealed
deriving DecidableEq, Repr

/-- How the library for dates prints an instant as RFC 3339 and reads it. -/
structure TimeFormat where
  print : Instant → List Char
  parse : List Char → Option Instant
  parse_print : ∀ t, parse (print t) = some t

/-- `u64::saturating_add` -/
def satAddU64 (a b : ℕ) : ℕ := min (a + b) (2^64 - 1)

section Lines

/-- The line of a text before its line feed, without a carriage return at its end. -/
def stripReturn (line : List Char) : List Char :=
  if line.getLast? = some '\r' then line.dropLast else line

/-- `str::lines`, with what has been read of the current line. -/
def linesFrom (line : List Char) : List Char → List (List Char)
  | [] => if line = [] then [] else [line]
  | c :: text =>
    if c = '\n' then stripReturn line :: linesFrom [] text else linesFrom (line ++ [c]) text

def textLines (text : List Char) : List (List Char) := linesFrom [] text

/-- Whether a text is empty or ends with a line feed. -/
def EndsLine (text : List Char) : Prop := text = [] ∨ text.getLast? = some '\n'

instance (text : List Char) : Decidable (EndsLine text) := inferInstanceAs (Decidable (_ ∨ _))

variable {text row : List Char}

theorem linesFrom_append_newline (line text rest : List Char) :
    linesFrom line (text ++ '\n' :: rest) = linesFrom line (text ++ ['\n']) ++ textLines rest := by
  induction text generalizing line with
  | nil => simp [linesFrom, textLines]
  | cons c text ih =>
    rw [List.cons_append, List.cons_append, linesFrom, linesFrom]
    split
    · rw [ih]
      rfl
    · exact ih _

theorem textLines_append (htext : EndsLine text) (rest : List Char) :
    textLines (text ++ rest) = textLines text ++ textLines rest := by
  rcases htext with rfl | hlast
  · rfl
  · obtain ⟨init, rfl⟩ := List.getLast?_eq_some_iff.mp hlast
    rw [List.append_assoc]
    exact linesFrom_append_newline [] init rest

theorem linesFrom_of_not_mem (line : List Char) (hrow : '\n' ∉ row) (rest : List Char) :
    linesFrom line (row ++ rest) = linesFrom (line ++ row) rest := by
  induction row generalizing line with
  | nil => rw [List.nil_append, List.append_nil]
  | cons c row ih =>
    have hc : c ≠ '\n' := fun h => hrow (h ▸ List.mem_cons_self)
    rw [List.cons_append, linesFrom, if_neg hc, ih _ (fun h => hrow (List.mem_cons_of_mem c h)),
      List.append_assoc]
    rfl

theorem textLines_row (hrow : '\n' ∉ row) :
    textLines (row ++ ['\n']) = [stripReturn row] := by
  rw [textLines, linesFrom_of_not_mem [] hrow]
  rfl

theorem textLines_of_not_mem (hrow : '\n' ∉ row) :
    textLines row = if row = [] then [] else [row] := by
  have h := linesFrom_of_not_mem [] hrow []
  rw [List.append_nil] at h
  exact h

end Lines

section Rows

variable (format : TimeFormat)

/-- The row of a line; a map prints its keys in order. -/
def rowMembers (line : LogLine) : List (List Char × JsonText.Scalar) :=
  [("line".toList, .string line.line.toList), ("sequence".toList, .natural line.sequence),
    ("stream".toList, .string (streamName line.stream)),
    ("timestamp".toList, .string (format.print line.timestamp))]

def encodeRow (line : LogLine) : List Char := JsonText.printObject (rowMembers format line)

/-- What `persist` appends. -/
def persisted (line : LogLine) : List Char := encodeRow format line ++ ['\n']

def persistedBytes (line : LogLine) : ByteArray := (String.ofList (persisted format line)).toUTF8

/-- One line of a journal file; `next` is the sequence of a line that has none. -/
def readRow (next : ℕ) (encoded : List Char) : Option LogLine :=
  (JsonText.parse encoded).bind fun value =>
    (((value.get "timestamp".toList).bind JsonText.Value.asString).bind format.parse).map
      fun timestamp =>
        { sequence := ((value.get "sequence".toList).bind JsonText.Value.asU64).getD next
          timestamp
          stream := (((value.get "stream".toList).bind JsonText.Value.asString).map
            parseStream).getD .stdout
          line := String.ofList
            (((value.get "line".toList).bind JsonText.Value.asString).getD []) }

/-- `next` is `next_legacy_sequence`. -/
def readRows (next : ℕ) : List (List Char) → List LogLine
  | [] => []
  | encoded :: rest =>
    match readRow format next encoded with
    | none => readRows next rest
    | some line => line :: readRows (max next (satAddU64 line.sequence 1)) rest

def readText (text : List Char) : List LogLine := readRows format 1 (textLines text)

/-- `read_journal`, of the contents of a file that exists -/
def readJournal (contents : ByteArray) : Except LogError (List LogLine) :=
  match contents.utf8Decode? with
  | none => .error (.storage "stream did not contain valid UTF-8")
  | some text => .ok (readText format text.toList)

variable {format} {line : LogLine} {text rest : List Char}

theorem isControl_of_mem_encodeRow {c : Char} (h : c ∈ encodeRow format line) :
    JsonText.isControl c = false :=
  JsonText.isControl_of_mem_printObject h

theorem newline_not_mem_encodeRow : '\n' ∉ encodeRow format line := by
  intro h
  exact absurd (isControl_of_mem_encodeRow h) (by decide)

theorem stripReturn_encodeRow : stripReturn (encodeRow format line) = encodeRow format line := by
  unfold stripReturn
  rw [if_neg]
  intro h
  exact absurd (isControl_of_mem_encodeRow (List.mem_of_getLast? h)) (by decide)

/-- The members of a row that is parsed. -/
theorem parse_encodeRow (hline : line.sequence < 2^64) : ∃ value,
    JsonText.parse (encodeRow format line) = some value ∧
      (value.get "line".toList).bind JsonText.Value.asString = some line.line.toList ∧
      (value.get "sequence".toList).bind JsonText.Value.asU64 = some line.sequence ∧
      (value.get "stream".toList).bind JsonText.Value.asString = some (streamName line.stream) ∧
      (value.get "timestamp".toList).bind JsonText.Value.asString =
        some (format.print line.timestamp) := by
  have hdigits : JsonText.Value.asU64 (.number (Nat.toDigits 10 line.sequence)) =
      some line.sequence := by
    have hall : (Nat.toDigits 10 line.sequence).all Char.isDigit = true :=
      List.all_eq_true.mpr fun c hc => Nat.isDigit_of_mem_toDigits (by decide) (by decide) hc
    simpa [JsonText.Value.asU64, hall] using hline
  exact ⟨.object (JsonText.values (rowMembers format line)),
    JsonText.parse_printObject (List.cons_ne_nil _ _), rfl, hdigits, rfl, rfl⟩

theorem readRow_encodeRow (hline : line.sequence < 2^64) (next : ℕ) :
    readRow format next (encodeRow format line) = some line := by
  obtain ⟨value, hparse, hline', hsequence, hstream, htimestamp⟩ :=
    @parse_encodeRow format _ hline
  unfold readRow
  rw [hparse, Option.bind_some, htimestamp, hsequence, hstream, hline', Option.bind_some]
  simp [format.parse_print, parseStream_streamName]

theorem readRows_append_row (hline : line.sequence < 2^64) (next : ℕ) (encoded : List (List Char)) :
    readRows format next (encoded ++ [encodeRow format line]) =
      readRows format next encoded ++ [line] := by
  induction encoded generalizing next with
  | nil =>
    show (match readRow format next (encodeRow format line) with
      | none => _
      | some line => _) = _
    rw [readRow_encodeRow hline]
    rfl
  | cons first encoded ih =>
    rw [List.cons_append, readRows, readRows]
    split
    · exact ih next
    · rw [ih]
      rfl

theorem readText_persisted (hline : line.sequence < 2^64) (htext : EndsLine text) :
    readText format (text ++ persisted format line) = readText format text ++ [line] := by
  unfold readText persisted
  rw [textLines_append htext, textLines_row newline_not_mem_encodeRow, stripReturn_encodeRow,
    readRows_append_row hline]

theorem persistedBytes_eq :
    persistedBytes format line = (persisted format line).utf8Encode := by
  rw [persistedBytes, String.toUTF8_eq_toByteArray, String.toByteArray_ofList]

theorem readJournal_utf8Encode (text : List Char) :
    readJournal format text.utf8Encode = .ok (readText format text) := by
  unfold readJournal
  rw [List.utf8Decode?_utf8Encode]

/-- A file of whole lines, and what is read from it. -/
def WholeFile (format : TimeFormat) (contents : ByteArray) (rows : List LogLine) : Prop :=
  ∃ text : List Char, contents = text.utf8Encode ∧ EndsLine text ∧ readText format text = rows

theorem WholeFile.readJournal {contents : ByteArray} {rows : List LogLine}
    (h : WholeFile format contents rows) : readJournal format contents = .ok rows := by
  obtain ⟨text, rfl, -, rfl⟩ := h
  exact readJournal_utf8Encode text

theorem wholeFile_empty : WholeFile format ByteArray.empty [] :=
  ⟨[], List.utf8Encode_nil.symm, .inl rfl, rfl⟩

theorem WholeFile.persist {contents : ByteArray} {rows : List LogLine}
    (h : WholeFile format contents rows) (hline : line.sequence < 2^64) :
    WholeFile format (contents ++ persistedBytes format line) (rows ++ [line]) := by
  obtain ⟨text, rfl, htext, rfl⟩ := h
  rw [persistedBytes_eq]
  refine ⟨text ++ persisted format line, List.utf8Encode_append.symm, .inr ?_,
    readText_persisted hline htext⟩
  rw [persisted, ← List.append_assoc]
  exact List.getLast?_concat

end Rows

end Supervisor
