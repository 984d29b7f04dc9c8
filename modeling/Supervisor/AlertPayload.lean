import Supervisor.AlertDomain

namespace Supervisor

/-! The stored text of an episode, and the pattern by which the retention recognises a resolved
one. -/

section Like

/-- `LIKE` compares the letters of ASCII without their case. -/
def startsLike : List Char → List Char → Bool
  | [], _ => true
  | _ :: _, [] => false
  | p :: pattern, c :: text => p.toLower = c.toLower && startsLike pattern text

/-- `text LIKE '%pattern%'`, for a pattern without wildcards -/
def like (pattern : List Char) : List Char → Bool
  | [] => startsLike pattern []
  | c :: text => startsLike pattern (c :: text) || like pattern text

end Like

def AlertState.name : AlertState → List Char
  | .active => "Active".toList
  | .acknowledgedActive => "AcknowledgedActive".toList
  | .resolved => "Resolved".toList

def AlertSeverity.name : AlertSeverity → List Char
  | .info => "Info".toList
  | .warning => "Warning".toList
  | .critical => "Critical".toList

/-- A member of the object, with the comma in front of the next one. -/
def printField (key : List Char) (value : List Char) (rest : List Char) : List Char :=
  JsonText.printString key ++ ':' :: value ++ rest

def printOptional (instant : Instant → List Char) : Option Instant → List Char
  | none => "null".toList
  | some t => JsonText.printString (instant t)

/-- `serde_json::to_string` of an episode -/
def AlertText.payload {φ : Type} (text : AlertText φ) (e : AlertEpisode) : List Char :=
  '{' :: printField "id".toList (JsonText.printString (text.uuid e.id))
    (',' :: printField "rule_id".toList (JsonText.printString (text.uuid e.ruleId))
    (',' :: printField "source".toList (JsonText.printString e.source)
    (',' :: printField "cause".toList (JsonText.printString e.cause)
    (',' :: printField "state".toList (JsonText.printString e.state.name)
    (',' :: printField "severity".toList (JsonText.printString e.severity.name)
    (',' :: printField "opened_at".toList (JsonText.printString (text.instant e.openedAt))
    (',' :: printField "resolved_at".toList (printOptional text.instant e.resolvedAt)
    (',' :: printField "acknowledged_at".toList (printOptional text.instant e.acknowledgedAt)
    ['}']))))))))

/-- The text between the wildcards of `'%"state":"Resolved"%'` -/
def resolvedPattern : List Char := "\"state\":\"Resolved\"".toList

section Like

variable {c : Char} {text rest word pattern : List Char}

theorem toLower_quote_ne (hc : c ≠ '"') : '"'.toLower ≠ c.toLower := by
  intro h
  have hquote : '"'.toLower = '"' := by decide
  rw [hquote] at h
  unfold Char.toLower at h
  split at h
  · rename_i hrange
    have hval : (34 : UInt32) = c.val + 32 := congrArg Char.val h
    have hsum := congrArg UInt32.toNat hval
    have hlow : 65 ≤ c.val.toNat := hrange.1
    have hhigh : c.val.toNat ≤ 90 := hrange.2
    rw [UInt32.toNat_add] at hsum
    have h34 : (34 : UInt32).toNat = 34 := rfl
    have h32 : (32 : UInt32).toNat = 32 := rfl
    omega
  · exact hc h.symm

/-- A character of an escaped string is itself, or begins an escape sequence. -/
theorem escapeChar_quote (c : Char) : (JsonText.escapeChar c = [c] ∧ c ≠ '"') ∨
    JsonText.escapeChar c = ['\\', '"'] ∨
      ∃ left, JsonText.escapeChar c = '\\' :: left ∧ '"' ∉ left := by
  unfold JsonText.escapeChar
  split_ifs with hquote _ _ _ _ _ _ hcontrol
  · exact .inr (.inl rfl)
  · exact .inr (.inr ⟨_, rfl, by decide⟩)
  · exact .inr (.inr ⟨_, rfl, by decide⟩)
  · exact .inr (.inr ⟨_, rfl, by decide⟩)
  · exact .inr (.inr ⟨_, rfl, by decide⟩)
  · exact .inr (.inr ⟨_, rfl, by decide⟩)
  · exact .inr (.inr ⟨_, rfl, by decide⟩)
  · refine .inr (.inr ⟨_, rfl, ?_⟩)
    generalize c.toNat = n at hcontrol
    interval_cases n <;> decide
  · exact .inl ⟨rfl, hquote⟩

theorem startsLike_cons_of_ne {p : Char} (h : p.toLower ≠ c.toLower) :
    startsLike (p :: pattern) (c :: rest) = false := by
  rw [startsLike, decide_eq_false h, Bool.false_and]

theorem like_cons_of_ne (hc : c ≠ '"') :
    like ('"' :: pattern) (c :: rest) = like ('"' :: pattern) rest := by
  rw [like, startsLike_cons_of_ne (toLower_quote_ne hc), Bool.false_or]

theorem like_append_of_not_mem (htext : '"' ∉ text) :
    like ('"' :: pattern) (text ++ rest) = like ('"' :: pattern) rest := by
  induction text with
  | nil => rfl
  | cons c text ih =>
    rw [List.mem_cons, not_or] at htext
    rw [List.cons_append, like_cons_of_ne (Ne.symm htext.1), ih htext.2]

/-- The letters of a word are matched neither by a quote nor by a backslash. -/
def Lettered (word : List Char) : Prop :=
  ∀ l ∈ word, l.toLower ≠ '"'.toLower ∧ l.toLower ≠ '\\'.toLower

instance : Decidable (Lettered word) := inferInstanceAs (Decidable (∀ l ∈ word, _ ∧ _))

/-- A word, a quote and a colon do not begin inside a string value. -/
theorem startsLike_escaped (hword : Lettered word) (hc : ':'.toLower ≠ c.toLower) :
    startsLike (word ++ '"' :: ':' :: pattern)
      (text.flatMap JsonText.escapeChar ++ '"' :: c :: rest) = false := by
  induction text generalizing word with
  | nil =>
    cases word with
    | nil =>
      have hcolon : startsLike (':' :: pattern) (c :: rest) = false := startsLike_cons_of_ne hc
      simpa [startsLike] using hcolon
    | cons l word => exact startsLike_cons_of_ne (hword l List.mem_cons_self).1
  | cons d text ih =>
    rw [List.flatMap_cons, List.append_assoc]
    rcases escapeChar_quote d with ⟨hplain, hd⟩ | hescape | ⟨left, hescape, -⟩
    · rw [hplain, List.singleton_append]
      cases word with
      | nil => exact startsLike_cons_of_ne (toLower_quote_ne hd)
      | cons l word =>
        have htail := ih fun l' hl' => hword l' (List.mem_cons_of_mem l hl')
        rw [List.cons_append, startsLike, htail, Bool.and_false]
    all_goals
      rw [hescape, List.cons_append]
      cases word with
      | nil => exact startsLike_cons_of_ne (by decide)
      | cons l word => exact startsLike_cons_of_ne (hword l List.mem_cons_self).2

/-- A key in quotes is not found in a string value. -/
theorem like_escaped (hword : Lettered word) (hc : ':'.toLower ≠ c.toLower) (hne : word ≠ [])
    (hfirst : ∀ l ∈ word.head?, l.toLower ≠ c.toLower) :
    like ('"' :: (word ++ '"' :: ':' :: pattern))
        (text.flatMap JsonText.escapeChar ++ '"' :: c :: rest) =
      like ('"' :: (word ++ '"' :: ':' :: pattern)) (c :: rest) := by
  induction text with
  | nil =>
    obtain ⟨l, word, rfl⟩ := List.exists_cons_of_ne_nil hne
    have hl := hfirst l rfl
    simp [like, startsLike, hl]
  | cons d text ih =>
    rw [List.flatMap_cons, List.append_assoc]
    rcases escapeChar_quote d with ⟨hplain, hd⟩ | hescape | ⟨left, hescape, hleft⟩
    · rw [hplain, List.singleton_append, like_cons_of_ne hd, ih]
    · -- behind the quote of the sequence the string value goes on
      have hstart := @startsLike_escaped _ text rest _ pattern hword hc
      rw [hescape, List.cons_append, like_cons_of_ne (by decide), List.singleton_append, like,
        startsLike, hstart, Bool.and_false, Bool.false_or, ih]
    · rw [hescape, List.cons_append, like_cons_of_ne (by decide), like_append_of_not_mem hleft, ih]

theorem like_printString (hword : Lettered word) (hc : ':'.toLower ≠ c.toLower) (hne : word ≠ [])
    (hfirst : ∀ l ∈ word.head?, l.toLower ≠ c.toLower) :
    like ('"' :: (word ++ '"' :: ':' :: pattern)) (JsonText.printString text ++ c :: rest) =
      like ('"' :: (word ++ '"' :: ':' :: pattern)) (c :: rest) := by
  have hstart := @startsLike_escaped _ text rest _ pattern hword hc
  have htail := @like_escaped _ text rest _ pattern hword hc hne hfirst
  rw [JsonText.printString, List.cons_append, List.cons_append, List.append_assoc,
    List.singleton_append, like, startsLike, hstart, Bool.and_false, Bool.false_or, htail]

end Like

section Resolved

variable {φ : Type} (text : AlertText φ) {value rest : List Char} {c : Char}

theorem resolvedPattern_eq : resolvedPattern =
    '"' :: ("state".toList ++ '"' :: ':' :: "\"Resolved\"".toList) := by decide

/-- What follows a member -/
def EndsMember (c : Char) : Prop := c = ',' ∨ c = '}'

theorem head_resolvedWord (h : 's'.toLower ≠ c.toLower) :
    ∀ l ∈ "state".toList.head?, l.toLower ≠ c.toLower := by
  intro l hl
  obtain rfl : 's' = l := by simpa using hl
  exact h

theorem like_value (hc : EndsMember c) :
    like resolvedPattern (JsonText.printString value ++ c :: rest) =
      like resolvedPattern (c :: rest) := by
  rw [resolvedPattern_eq]
  rcases hc with rfl | rfl
  · exact like_printString (by simp [Lettered]) (by decide) (by simp) (head_resolvedWord (by decide))
  · exact like_printString (by simp [Lettered]) (by decide) (by simp) (head_resolvedWord (by decide))

theorem like_optional (t : Option Instant) (hc : EndsMember c) :
    like resolvedPattern (printOptional text.instant t ++ c :: rest) =
      like resolvedPattern (c :: rest) := by
  cases t with
  | none => exact @like_append_of_not_mem ("null".toList) _ _ (by decide)
  | some t => exact like_value hc

theorem like_state (e : AlertState) : like resolvedPattern
    (printField "state".toList (JsonText.printString e.name) (',' :: rest)) =
      (decide (e = .resolved) || like resolvedPattern rest) := by
  cases e with
  | active => rfl
  | acknowledgedActive => rfl
  | resolved => rfl

theorem like_field {key : List Char}
    (hkey : key ∈ ["id", "rule_id", "source", "cause", "severity", "opened_at", "resolved_at",
      "acknowledged_at"].map String.toList) :
    like resolvedPattern (printField key value rest) = like resolvedPattern (value ++ rest) := by
  simp only [List.map_cons, List.map_nil, List.mem_cons, List.not_mem_nil, or_false] at hkey
  rcases hkey with rfl | rfl | rfl | rfl | rfl | rfl | rfl | rfl <;> rfl

theorem like_brace : like resolvedPattern ('{' :: rest) = like resolvedPattern rest := rfl

theorem like_comma : like resolvedPattern (',' :: rest) = like resolvedPattern rest := rfl

theorem like_payload (e : AlertEpisode) :
    like resolvedPattern (text.payload e) = decide (e.state = .resolved) := by
  have hcomma : EndsMember ',' := .inl rfl
  have hend : EndsMember '}' := .inr rfl
  have hclose : like resolvedPattern ['}'] = false := rfl
  unfold AlertText.payload
  rw [like_brace, like_field (by simp), like_value hcomma, like_comma, like_field (by simp),
    like_value hcomma, like_comma, like_field (by simp), like_value hcomma, like_comma,
    like_field (by simp), like_value hcomma, like_comma, like_state, like_field (by simp),
    like_value hcomma, like_comma, like_field (by simp), like_value hcomma, like_comma,
    like_field (by simp), like_optional text _ hcomma, like_comma, like_field (by simp),
    like_optional text _ hend, hclose, Bool.or_false]

end Resolved

end Supervisor
