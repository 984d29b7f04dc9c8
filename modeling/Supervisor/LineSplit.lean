import Mathlib.Data.List.Infix

/-! Lines of a sequence: each ends with a separator, but for what follows the last one. -/
namespace LineSplit

variable {β : Type*}

section Lines

variable [DecidableEq β] {sep : β} {line rest : List β}

/-- The lines with their separators -/
def lines (sep : β) : List β → List (List β)
  | [] => []
  | b :: bs =>
    if b = sep then [b] :: lines sep bs
    else match lines sep bs with
      | [] => [[b]]
      | line :: more => (b :: line) :: more

theorem lines_cons (b : β) (bs : List β) :
    lines sep (b :: bs) = if b = sep then [b] :: lines sep bs
      else match lines sep bs with
        | [] => [[b]]
        | line :: more => (b :: line) :: more := rfl

/-- What stands up to the first separator, with it, and what follows -/
def firstLine (sep : β) : List β → Option (List β × List β)
  | [] => none
  | b :: bs =>
    if b = sep then some ([b], bs) else (firstLine sep bs).map fun (line, rest) => (b :: line, rest)

/-- A line with its separator -/
def IsLine (sep : β) (line : List β) : Prop := ∃ init, line = init ++ [sep] ∧ sep ∉ init

theorem lines_append (h : IsLine sep line) (rest : List β) :
    lines sep (line ++ rest) = line :: lines sep rest := by
  obtain ⟨init, rfl, hinit⟩ := h
  induction init with
  | nil =>
    rw [List.nil_append, List.cons_append, List.nil_append, lines_cons, if_pos rfl]
  | cons b init ih =>
    have hb : b ≠ sep := fun heq => hinit (heq ▸ List.mem_cons_self)
    have htail := ih fun hmem => hinit (List.mem_cons_of_mem b hmem)
    rw [List.cons_append, List.cons_append, lines_cons, if_neg hb, htail]

theorem lines_flatten_append {done : List (List β)} (h : ∀ l ∈ done, IsLine sep l) (rest : List β) :
    lines sep (done.flatten ++ rest) = done ++ lines sep rest := by
  induction done with
  | nil => rfl
  | cons line done ih =>
    rw [List.flatten_cons, List.append_assoc, lines_append (h line List.mem_cons_self),
      ih fun l hl => h l (List.mem_cons_of_mem line hl)]
    rfl

theorem lines_of_not_mem (h : sep ∉ rest) (hne : rest ≠ []) : lines sep rest = [rest] := by
  induction rest with
  | nil => exact absurd rfl hne
  | cons b bs ih =>
    have hb : b ≠ sep := fun heq => h (heq ▸ List.mem_cons_self)
    rw [lines_cons, if_neg hb]
    cases bs with
    | nil => rfl
    | cons c bs => rw [ih (fun hmem => h (List.mem_cons_of_mem b hmem)) (List.cons_ne_nil c bs)]

theorem firstLine_eq_some {bytes : List β} (h : firstLine sep bytes = some (line, rest)) :
    bytes = line ++ rest ∧ IsLine sep line := by
  induction bytes generalizing line with
  | nil => cases h
  | cons b bs ih =>
    unfold firstLine at h
    split at h
    · rename_i hb
      obtain ⟨rfl, rfl⟩ := Prod.mk.inj (Option.some.inj h)
      exact ⟨rfl, [], by rw [hb]; rfl, List.not_mem_nil⟩
    · rename_i hb
      obtain ⟨⟨tail, rest'⟩, htail, heq⟩ := Option.map_eq_some_iff.mp h
      obtain ⟨rfl, rfl⟩ := Prod.mk.inj heq
      obtain ⟨hbytes, init, hinit, hnot⟩ := ih htail
      refine ⟨congrArg (b :: ·) hbytes, b :: init, congrArg (b :: ·) hinit, ?_⟩
      intro hmem
      rcases List.mem_cons.mp hmem with rfl | hmem
      · exact hb rfl
      · exact hnot hmem

theorem firstLine_eq_none {bytes : List β} (h : firstLine sep bytes = none) : sep ∉ bytes := by
  induction bytes with
  | nil => exact List.not_mem_nil
  | cons b bs ih =>
    unfold firstLine at h
    split at h
    · cases h
    · rename_i hb
      intro hmem
      rcases List.mem_cons.mp hmem with rfl | hmem
      · exact hb rfl
      · exact ih (Option.map_eq_none_iff.mp h) hmem

end Lines

section Decoding

variable {τ : Type*} {decode : List β → Option τ}

/-- The texts of the lines up to the first one that has none -/
def decodable (decode : List β → Option τ) : List (List β) → List τ
  | [] => []
  | line :: more =>
    match decode line with
    | none => []
    | some text => text :: decodable decode more

theorem decodable_cons {line : List β} {text : τ} (h : decode line = some text)
    (more : List (List β)) : decodable decode (line :: more) = text :: decodable decode more := by
  conv_lhs => unfold decodable
  rw [h]

theorem decodable_append {done : List (List β)} {texts : List τ}
    (h : done.map decode = texts.map some) (more : List (List β)) :
    decodable decode (done ++ more) = texts ++ decodable decode more := by
  induction done generalizing texts with
  | nil =>
    rw [List.map_nil] at h
    rw [List.map_eq_nil_iff.mp h.symm]
    rfl
  | cons line done ih =>
    cases texts with
    | nil => cases h
    | cons text texts =>
      rw [List.map_cons, List.map_cons] at h
      obtain ⟨hline, hdone⟩ := List.cons.inj h
      rw [List.cons_append, decodable_cons hline, ih hdone]
      rfl

/-- One text for each line, and the text of a line that has one -/
def OnePerLine (decode : List β → Option τ) (lines : List (List β)) (texts : List τ) : Prop :=
  List.Forall₂ (fun line text => ∀ t ∈ decode line, text = t) lines texts

/-- The texts are one for each line when each line has a text. -/
theorem onePerLine_decodable_iff {lines : List (List β)} :
    OnePerLine decode lines (decodable decode lines) ↔ ∀ line ∈ lines, (decode line).isSome = true := by
  induction lines with
  | nil => exact ⟨fun _ line hline => absurd hline List.not_mem_nil, fun _ => .nil⟩
  | cons line lines ih =>
    unfold decodable
    cases hline : decode line with
    | none =>
      constructor
      · intro h
        cases h
      · intro h
        have hsome := h line List.mem_cons_self
        rw [hline] at hsome
        cases hsome
    | some text =>
      dsimp only
      constructor
      · intro h l hl
        obtain ⟨_, hrest⟩ := List.forall₂_cons.mp h
        rcases List.mem_cons.mp hl with rfl | hl
        · rw [hline]
          rfl
        · exact ih.mp hrest l hl
      · intro h
        refine List.forall₂_cons.mpr ⟨?_, ih.mpr fun l hl => h l (List.mem_cons_of_mem line hl)⟩
        intro t ht
        rw [hline] at ht
        exact Option.some.inj ht

end Decoding

end LineSplit
