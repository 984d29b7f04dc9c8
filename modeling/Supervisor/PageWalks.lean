import Mathlib.Data.String.Basic
import Supervisor.AlertStore
import Supervisor.KeysetWalk
import Supervisor.PageCursor
import Supervisor.Rfc3339

namespace Supervisor

/-- A bounded page of a repository -/
structure BoundedPage (α : Type) where
  records : List α
  nextCursor : Option String
  highWatermark : String
  failedPartitions : List String := []

namespace SpecPages

abbrev SpecTable := KeyedTable ProcessSpec.name

/-- `COALESCE(MAX(name), '')` -/
def maxName (specs : List ProcessSpec) : String := specs.foldr (fun spec m => max spec.name m) ""

/-- `list_specs_page`. The watermark is read before the rows. The callers' limits are 1 to 200. -/
def listSpecsPage (before table : SpecTable) (cursor highWatermark : Option String) (limit : ℕ) :
    BoundedPage ProcessSpec :=
  let highWatermark := highWatermark.getD (maxName before.rows)
  let rows := OrderedPage.first ProcessSpec.name (limit + 1)
    (table.rows.filter fun spec => cursor.getD "" < spec.name && spec.name ≤ highWatermark)
  let records := rows.take limit
  { records
    nextCursor := if limit < rows.length then records.getLast?.map ProcessSpec.name else none
    highWatermark }

/-- The default implementation of the port -/
def defaultSpecsPage (table : SpecTable) (cursor highWatermark : Option String) (limit : ℕ) :
    BoundedPage ProcessSpec :=
  let specs := OrderedPage.ordered ProcessSpec.name table.rows
  let highWatermark := (highWatermark.or (specs.getLast?.map ProcessSpec.name)).getD ""
  let specs := specs.filter fun spec =>
    cursor.all (fun cursor => cursor < spec.name) && spec.name ≤ highWatermark
  { records := specs.take limit
    nextCursor :=
      if limit < specs.length then (specs.take limit).getLast?.map ProcessSpec.name else none
    highWatermark }

/-- The names that `validate_spec` lets through are not empty. -/
def Named (table : SpecTable) : Prop := ∀ spec ∈ table, spec.name ≠ ""

variable {table before : SpecTable} {spec : ProcessSpec} {limit : ℕ}

theorem empty_le (name : String) : "" ≤ name := by
  rw [← not_lt, String.lt_iff_toList_lt]
  exact List.not_lt_nil _

theorem empty_lt {name : String} (h : name ≠ "") : "" < name := lt_of_le_of_ne (empty_le name) h.symm

theorem le_maxName {specs : List ProcessSpec} (h : spec ∈ specs) : spec.name ≤ maxName specs := by
  induction specs with
  | nil => exact absurd h List.not_mem_nil
  | cons first specs ih =>
    change _ ≤ max first.name (maxName specs)
    rcases List.mem_cons.mp h with rfl | h
    · exact le_max_left _ _
    · exact (ih h).trans (le_max_right _ _)

theorem maxName_le {specs : List ProcessSpec} {name : String} (h : ∀ spec ∈ specs, spec.name ≤ name) :
    maxName specs ≤ name := by
  induction specs with
  | nil => exact empty_le name
  | cons first specs ih =>
    change max first.name (maxName specs) ≤ name
    exact max_le (h first List.mem_cons_self) (ih fun spec hs => h spec (List.mem_cons_of_mem _ hs))

/-- The rows of a read that a page can hold -/
def selected (table : SpecTable) (cursor : Option String) (highWatermark : String) :
    List ProcessSpec :=
  KeysetWalk.beyond ProcessSpec.name cursor
    (table.rows.filter fun spec => spec.name ≤ highWatermark)

theorem filter_eq_selected (hnamed : Named table) (cursor : Option String) (highWatermark : String) :
    (table.rows.filter fun spec => cursor.getD "" < spec.name && spec.name ≤ highWatermark) =
      selected table cursor highWatermark := by
  unfold selected KeysetWalk.beyond
  rw [List.filter_filter]
  apply List.filter_congr
  intro spec hspec
  congr 1
  cases cursor with
  | none => simp [KeysetWalk.After, empty_lt (hnamed spec hspec)]
  | some cursor => simp [KeysetWalk.After]

theorem length_ordered (specs : List ProcessSpec) :
    (OrderedPage.ordered ProcessSpec.name specs).length = specs.length := List.length_insertionSort _ _

/-- A page by the rows it selects -/
def pageOf (specs : List ProcessSpec) (highWatermark : String) (limit : ℕ) :
    BoundedPage ProcessSpec where
  records := OrderedPage.first ProcessSpec.name limit specs
  nextCursor :=
    if limit < specs.length then
      (OrderedPage.first ProcessSpec.name limit specs).getLast?.map ProcessSpec.name
    else none
  highWatermark := highWatermark

theorem listSpecsPage_eq (hnamed : Named table) (cursor highWatermark : Option String) :
    listSpecsPage before table cursor highWatermark limit =
      pageOf (selected table cursor (highWatermark.getD (maxName before.rows)))
        (highWatermark.getD (maxName before.rows)) limit := by
  unfold listSpecsPage pageOf
  dsimp only
  rw [filter_eq_selected hnamed]
  have htake (specs : List ProcessSpec) :
      (OrderedPage.first ProcessSpec.name (limit + 1) specs).take limit =
        OrderedPage.first ProcessSpec.name limit specs := by
    unfold OrderedPage.first
    rw [List.take_take, min_eq_left (Nat.le_succ limit)]
  have hmore (specs : List ProcessSpec) :
      limit < (OrderedPage.first ProcessSpec.name (limit + 1) specs).length ↔ limit < specs.length := by
    unfold OrderedPage.first
    rw [List.length_take, length_ordered]
    omega
  simp only [htake, hmore]

theorem defaultSpecsPage_eq (cursor highWatermark : Option String) :
    defaultSpecsPage table cursor highWatermark limit =
      pageOf (selected table cursor (highWatermark.getD (maxName table.rows)))
        (highWatermark.getD (maxName table.rows)) limit := by
  have hlast : ((OrderedPage.ordered ProcessSpec.name table.rows).getLast?.map
      ProcessSpec.name).getD "" = maxName table.rows := by
    cases hget : (OrderedPage.ordered ProcessSpec.name table.rows).getLast? with
    | none =>
      have hempty : table.rows = [] := by
        rw [← List.length_eq_zero_iff, ← length_ordered, List.getLast?_eq_none_iff.mp hget]
        rfl
      rw [hempty]
      rfl
    | some last =>
      have hmem := OrderedPage.mem_ordered.mp (List.mem_of_getLast? hget)
      exact le_antisymm (le_maxName hmem)
        (maxName_le fun spec hspec => OrderedPage.le_getLast hget hspec)
  have hwatermark : (highWatermark.or ((OrderedPage.ordered ProcessSpec.name table.rows).getLast?.map
      ProcessSpec.name)).getD "" = highWatermark.getD (maxName table.rows) := by
    cases highWatermark with
    | none => exact hlast
    | some highWatermark => rfl
  have hselected : (OrderedPage.ordered ProcessSpec.name table.rows).filter (fun spec =>
      cursor.all (fun cursor => cursor < spec.name) &&
        spec.name ≤ highWatermark.getD (maxName table.rows)) =
      OrderedPage.ordered ProcessSpec.name
        (selected table cursor (highWatermark.getD (maxName table.rows))) := by
    unfold selected KeysetWalk.beyond
    rw [List.filter_filter, OrderedPage.ordered_filter table.nodup_key]
    apply List.filter_congr
    intro spec hspec
    congr 1
    cases cursor with
    | none => simp [KeysetWalk.After]
    | some cursor => simp [KeysetWalk.After]
  unfold defaultSpecsPage pageOf
  dsimp only
  rw [hwatermark, hselected, length_ordered]
  rfl

theorem listSpecsPage_eq_default (hnamed : Named table) (cursor highWatermark : Option String) :
    listSpecsPage table table cursor highWatermark limit =
      defaultSpecsPage table cursor highWatermark limit := by
  rw [listSpecsPage_eq hnamed, defaultSpecsPage_eq]

/-- A key on its way through a query: encoded by the answer, decoded by the request -/
def resent (key : String) : Option String :=
  match PageCursor.decodePageKey (some (PageCursor.encodePageKey key)) with
  | .ok key => key
  | .error _ => none

theorem resent_eq (key : String) : resent key = some key := by
  unfold resent
  rw [PageCursor.decode_encode]

/-- The reads of a walk: the first one fixes the watermark, and the others send it again. -/
def readSpecs (before : SpecTable) (tables : ℕ → SpecTable) (limit : ℕ) (i : ℕ)
    (cursor : Option String) : List ProcessSpec × Option String :=
  let first := listSpecsPage before (tables 0) none none limit
  let highWatermark := if i = 0 then none else resent first.highWatermark
  let page := listSpecsPage before (tables i) (cursor.bind resent) highWatermark limit
  (page.records, page.nextCursor)

/-- The rows of a read under the watermark -/
def under (before : SpecTable) (tables : ℕ → SpecTable) (i : ℕ) : List ProcessSpec :=
  (tables i).rows.filter fun spec => spec.name ≤ maxName before.rows

variable {tables : ℕ → SpecTable}

theorem readSpecs_isPage (hlimit : 0 < limit) (hnamed : ∀ i, Named (tables i)) (i : ℕ)
    (cursor : Option String) :
    KeysetWalk.IsPage ProcessSpec.name (under before tables i) cursor
      (readSpecs before tables limit i cursor).1 (readSpecs before tables limit i cursor).2 := by
  have hcursor : cursor.bind resent = cursor := by
    cases cursor with
    | none => rfl
    | some cursor => rw [Option.bind_some, resent_eq]
  have hfirst : (listSpecsPage before (tables 0) none none limit).highWatermark =
      maxName before.rows := by
    rw [listSpecsPage_eq (hnamed 0), Option.getD_none]
    rfl
  have hwatermark : (if i = 0 then none
      else resent (listSpecsPage before (tables 0) none none limit).highWatermark).getD
        (maxName before.rows) = maxName before.rows := by
    rw [hfirst, resent_eq]
    split
    · rw [Option.getD_none]
    · rw [Option.getD_some]
  unfold readSpecs
  dsimp only
  rw [hcursor, listSpecsPage_eq (hnamed i), hwatermark]
  have hselected : selected (tables i) cursor (maxName before.rows) =
      KeysetWalk.beyond ProcessSpec.name cursor (under before tables i) := rfl
  unfold pageOf
  dsimp only
  rw [hselected]
  apply KeysetWalk.isPage_first
  · exact (tables i).nodup_key.sublist (List.filter_sublist.map _)
  · intro hnone
    split at hnone
    · rename_i hmore
      -- a page that has more rows has a last one
      rw [Option.map_eq_none_iff, List.getLast?_eq_none_iff] at hnone
      have hlength := congrArg List.length hnone
      unfold OrderedPage.first at hlength
      rw [List.length_take, length_ordered, List.length_nil] at hlength
      omega
    · rename_i hfew
      exact Nat.not_lt.mp hfew
  · intro c hc
    split at hc
    · exact hc
    · cases hc

theorem specs_walked (hlimit : 0 < limit) (hnamed : ∀ i, Named (tables i)) {settled : ℕ}
    (hsettled : ∀ j, settled ≤ j → tables j = tables settled) :
    KeysetWalk.Completes ProcessSpec.name (readSpecs before tables limit) fun spec =>
      spec ∈ before ∧ ∀ i, spec ∈ tables i := by
  have hrows : ∀ j, settled ≤ j → under before tables j = under before tables settled :=
    fun j hj => by
      unfold under
      rw [hsettled j hj]
  apply (KeysetWalk.completes (readSpecs_isPage hlimit hnamed) hrows).mono
  intro spec ⟨hbefore, hstays⟩ j
  exact List.mem_filter.mpr ⟨hstays j, decide_eq_true (le_maxName hbefore)⟩

end SpecPages

/-- A row of an observability table. The texts of ids have no bar. -/
structure ObservabilityRow (α : Type) where
  id : { text : List Char // '|' ∉ text }
  occurredAt : { t : Instant // Rfc3339.hasFourDigits t = true }
  payload : α

structure ObservabilityPage (α : Type) where
  records : List α
  nextCursor : Option (List Char)
  highWatermark : Option (List Char)
  earliestRetainedAt : Option Instant

namespace RecordPages

/-- A key in front of whose bar there is none -/
def CursorKey : Type := { key : List Char ×ₗ List Char // '|' ∉ (ofLex key).1 }

instance : LinearOrder CursorKey :=
  inferInstanceAs (LinearOrder { key : List Char ×ₗ List Char // '|' ∉ (ofLex key).1 })

/-- `format!("{at}|{id}")` -/
def CursorKey.text (key : CursorKey) : List Char :=
  (ofLex key.val).1 ++ '|' :: (ofLex key.val).2

theorem splitOnce_append {c : Char} {a b : List Char} (ha : c ∉ a) :
    splitOnce c (a ++ c :: b) = some (a, b) := by
  induction a with
  | nil => exact if_pos rfl
  | cons d a ih =>
    have hne : d ≠ c := fun heq => ha (heq ▸ List.mem_cons_self)
    rw [List.cons_append]
    unfold splitOnce
    rw [if_neg hne, ih fun hc => ha (List.mem_cons_of_mem d hc)]
    rfl

theorem splitOnce_fst {c : Char} {text : List Char} {parts : List Char × List Char}
    (h : splitOnce c text = some parts) : c ∉ parts.1 := by
  induction text generalizing parts with
  | nil => cases h
  | cons d text ih =>
    unfold splitOnce at h
    split at h
    · obtain rfl := Option.some.inj h
      exact List.not_mem_nil
    · rename_i hne
      obtain ⟨rest, hrest, rfl⟩ := Option.map_eq_some_iff.mp h
      intro hc
      rcases List.mem_cons.mp hc with rfl | hc
      · exact hne rfl
      · exact ih hrest hc

/-- `cursor` of a text -/
def readKey (text : List Char) : Option CursorKey :=
  match h : splitOnce '|' text with
  | none => none
  | some parts => some ⟨toLex parts, splitOnce_fst h⟩

theorem readKey_text (key : CursorKey) : readKey key.text = some key := by
  have hsplit : splitOnce '|' key.text = some (ofLex key.val) := splitOnce_append key.property
  unfold readKey
  split
  · rename_i hnone
    rw [hsplit] at hnone
    cases hnone
  · rename_i parts hsome
    rw [hsplit] at hsome
    exact congrArg some (Subtype.ext (Option.some.inj hsome).symm)

theorem digitChar_ne_bar (n : ℕ) : Nat.digitChar n ≠ '|' := by
  have hdigits : ∀ m < 16, Nat.digitChar m ≠ '|' := by decide
  rcases lt_or_ge n 16 with hn | hn
  · exact hdigits n hn
  · unfold Nat.digitChar
    iterate 16 rw [if_neg (by omega)]
    decide

theorem bar_not_mem_digits (w n : ℕ) : '|' ∉ Rfc3339.digits w n := by
  induction w generalizing n with
  | zero => exact List.not_mem_nil
  | succ w ih =>
    intro hmem
    rcases List.mem_cons.mp hmem with heq | hmem
    · exact digitChar_ne_bar _ heq.symm
    · exact ih _ hmem

theorem bar_not_mem_rfc3339 {t : Instant} (h : Rfc3339.hasFourDigits t = true) :
    '|' ∉ Rfc3339.toRfc3339 t := by
  unfold Rfc3339.hasFourDigits at h
  rw [Bool.and_eq_true, decide_eq_true_eq, decide_eq_true_eq] at h
  have hfraction (n : ℕ) : '|' ∉ Rfc3339.fractionText n := by
    unfold Rfc3339.fractionText
    split
    · exact List.not_mem_nil
    · split
      · simp [bar_not_mem_digits]
      · split
        · simp [bar_not_mem_digits]
        · simp [bar_not_mem_digits]
  unfold Rfc3339.toRfc3339 Rfc3339.yearText Rfc3339.timeText Rfc3339.minuteText Rfc3339.secondText
    Rfc3339.offsetText
  simp [if_pos h, bar_not_mem_digits, hfraction]

section Pages

variable {α : Type}

def rank (row : ObservabilityRow α) : CursorKey :=
  ⟨toLex (Rfc3339.toRfc3339 row.occurredAt.val, row.id.val), bar_not_mem_rfc3339 row.occurredAt.property⟩

/-- `cursor` -/
def parseCursor : Option (List Char) → Except RepoError (Option (List Char × List Char))
  | none => .ok none
  | some text => match splitOnce '|' text with
    | some key => .ok (some key)
    | none => .error (.backend "observability cursor is invalid or expired")

/-- `occurred_at > ? OR (occurred_at = ? AND id > ?)` -/
def isAfter (cursor : List Char × List Char) (row : ObservabilityRow α) : Bool :=
  cursor.1 < Rfc3339.toRfc3339 row.occurredAt.val ||
    (Rfc3339.toRfc3339 row.occurredAt.val = cursor.1 && cursor.2 < row.id.val)

/-- The lists of the observability records, each with its own condition on the rows -/
def listRecords (isListed : ObservabilityRow α → Bool)
    (table : KeyedTable (ObservabilityRow.id (α := α))) (cursor : Option (List Char)) (limit : ℕ) :
    Except RepoError (ObservabilityPage (ObservabilityRow α)) :=
  (parseCursor cursor).map fun cursor =>
    let rows := OrderedPage.first rank (pageLimit limit)
      (table.rows.filter fun row => isListed row && cursor.all fun cursor => isAfter cursor row)
    let highWatermark := rows.getLast?.map fun row => (rank row).text
    { records := rows
      nextCursor := highWatermark
      highWatermark
      earliestRetainedAt := (table.rows.map fun row => row.occurredAt.val).min? }

variable {isListed : ObservabilityRow α → Bool} {table : KeyedTable (ObservabilityRow.id (α := α))}
  {limit : ℕ}

theorem isAfter_iff (cursor : CursorKey) (row : ObservabilityRow α) :
    isAfter (ofLex cursor.val) row = true ↔ cursor < rank row := by
  unfold isAfter
  rw [Bool.or_eq_true, Bool.and_eq_true, decide_eq_true_eq, decide_eq_true_eq, decide_eq_true_eq]
  have hlex : cursor < rank row ↔
      cursor.val < toLex (Rfc3339.toRfc3339 row.occurredAt.val, row.id.val) := Iff.rfl
  rw [hlex, Prod.Lex.lt_iff]
  exact or_congr_right (and_congr_left' eq_comm)

/-- The listed rows of a read -/
def listed (isListed : ObservabilityRow α → Bool)
    (table : KeyedTable (ObservabilityRow.id (α := α))) : List (ObservabilityRow α) :=
  table.rows.filter isListed

theorem nodup_rank_listed : ((listed isListed table).map rank).Nodup := by
  have hids : ((listed isListed table).map ObservabilityRow.id).Nodup :=
    table.nodup_key.sublist (List.filter_sublist.map _)
  have hrank : ((listed isListed table).map rank).map (fun key => (ofLex key.val).2) =
      (((listed isListed table).map ObservabilityRow.id).map Subtype.val) := by
    rw [List.map_map, List.map_map]
    rfl
  have htexts := hids.map (f := Subtype.val) Subtype.val_injective
  rw [← hrank] at htexts
  exact htexts.of_map _

/-- The answer to a cursor that an earlier page has given -/
theorem listRecords_eq (cursor : Option CursorKey) :
    listRecords isListed table (cursor.map CursorKey.text) limit = .ok
      { records := OrderedPage.first rank (pageLimit limit)
          (KeysetWalk.beyond rank cursor (listed isListed table))
        nextCursor := (OrderedPage.first rank (pageLimit limit)
          (KeysetWalk.beyond rank cursor (listed isListed table))).getLast?.map fun row =>
            (rank row).text
        highWatermark := (OrderedPage.first rank (pageLimit limit)
          (KeysetWalk.beyond rank cursor (listed isListed table))).getLast?.map fun row =>
            (rank row).text
        earliestRetainedAt := (table.rows.map fun row => row.occurredAt.val).min? } := by
  have hparse : parseCursor (cursor.map CursorKey.text) =
      .ok (cursor.map fun key => ofLex key.val) := by
    cases cursor with
    | none => rfl
    | some key =>
      have hsplit : splitOnce '|' key.text = some (ofLex key.val) := splitOnce_append key.property
      unfold parseCursor
      rw [Option.map_some]
      dsimp only
      rw [hsplit]
      rfl
  have hrows : (table.rows.filter fun row => isListed row &&
      (cursor.map fun key => ofLex key.val).all fun key => isAfter key row) =
      KeysetWalk.beyond rank cursor (listed isListed table) := by
    unfold KeysetWalk.beyond listed
    rw [List.filter_filter]
    apply List.filter_congr
    intro row hrow
    rw [Bool.and_comm]
    congr 1
    cases cursor with
    | none => simp [KeysetWalk.After]
    | some key =>
      rw [Bool.eq_iff_iff, decide_eq_true_eq]
      simp only [Option.map_some, Option.all_some, isAfter_iff]
      exact ⟨fun h c hc => Option.some.inj hc ▸ h, fun h => h key rfl⟩
  unfold listRecords
  rw [hparse]
  dsimp only [Except.map]
  rw [hrows]

/-- The reads of a walk -/
def readRecords (isListed : ObservabilityRow α → Bool)
    (tables : ℕ → KeyedTable (ObservabilityRow.id (α := α))) (limit : ℕ) (i : ℕ)
    (cursor : Option CursorKey) : List (ObservabilityRow α) × Option CursorKey :=
  match listRecords isListed (tables i) (cursor.map CursorKey.text) limit with
  | .ok page => (page.records, page.nextCursor.bind readKey)
  | .error _ => ([], none)

/-- The watermark of the first read -/
def firstWatermark (isListed : ObservabilityRow α → Bool)
    (tables : ℕ → KeyedTable (ObservabilityRow.id (α := α))) (limit : ℕ) : Option CursorKey :=
  match listRecords isListed (tables 0) none limit with
  | .ok page => page.highWatermark.bind readKey
  | .error _ => none

/-- The reads of a walk that keeps to the watermark of the first one -/
def readUnder (isListed : ObservabilityRow α → Bool)
    (tables : ℕ → KeyedTable (ObservabilityRow.id (α := α))) (limit : ℕ) (i : ℕ)
    (cursor : Option CursorKey) : List (ObservabilityRow α) × Option CursorKey :=
  let page := readRecords isListed tables limit i cursor
  match firstWatermark isListed tables limit with
  | none => page
  | some highWatermark =>
    (page.1.filter fun row => rank row ≤ highWatermark, page.2.filter fun key => key < highWatermark)

variable {tables : ℕ → KeyedTable (ObservabilityRow.id (α := α))}

theorem readRecords_eq (i : ℕ) (cursor : Option CursorKey) :
    readRecords isListed tables limit i cursor =
      (OrderedPage.first rank (pageLimit limit)
        (KeysetWalk.beyond rank cursor (listed isListed (tables i))),
      (OrderedPage.first rank (pageLimit limit)
        (KeysetWalk.beyond rank cursor (listed isListed (tables i)))).getLast?.map rank) := by
  unfold readRecords
  rw [listRecords_eq]
  dsimp only
  congr 1
  cases (OrderedPage.first rank (pageLimit limit)
    (KeysetWalk.beyond rank cursor (listed isListed (tables i)))).getLast? with
  | none => rfl
  | some row => exact readKey_text (rank row)

theorem pageLimit_pos (limit : ℕ) : 0 < pageLimit limit := le_max_left 1 _

theorem readRecords_isPage (i : ℕ) (cursor : Option CursorKey) :
    KeysetWalk.IsPage rank (listed isListed (tables i)) cursor
      (readRecords isListed tables limit i cursor).1
      (readRecords isListed tables limit i cursor).2 := by
  rw [readRecords_eq]
  apply KeysetWalk.isPage_first nodup_rank_listed
  · intro hnone
    -- only a page of no rows has no last one
    rw [Option.map_eq_none_iff, List.getLast?_eq_none_iff] at hnone
    have hlength := congrArg List.length hnone
    unfold OrderedPage.first OrderedPage.ordered at hlength
    rw [List.length_take, List.length_insertionSort, List.length_nil] at hlength
    have hpos := pageLimit_pos limit
    omega
  · intro c hc
    exact hc

theorem records_walked {settled : ℕ} (hsettled : ∀ j, settled ≤ j → tables j = tables settled) :
    KeysetWalk.Completes rank (readRecords isListed tables limit) fun row =>
      isListed row = true ∧ ∀ i, row ∈ tables i := by
  have hrows : ∀ j, settled ≤ j →
      listed isListed (tables j) = listed isListed (tables settled) := fun j hj => by
    rw [hsettled j hj]
  apply (KeysetWalk.completes readRecords_isPage hrows).mono
  intro row ⟨hlisted, hstays⟩ j
  exact List.mem_filter.mpr ⟨hstays j, hlisted⟩

/-- The watermark of a page is the key of its own last row, where the walk under it stops. -/
theorem readUnder_first :
    readUnder isListed tables limit 0 none =
      (OrderedPage.first rank (pageLimit limit) (listed isListed (tables 0)), none) := by
  have hbeyond : KeysetWalk.beyond rank none (listed isListed (tables 0)) =
      listed isListed (tables 0) := by
    apply List.filter_eq_self.mpr
    intro row hrow
    exact decide_eq_true (fun c hc => by cases hc)
  have hread := @readRecords_eq _ isListed limit tables 0 none
  rw [hbeyond] at hread
  have hwatermark : firstWatermark isListed tables limit =
      (OrderedPage.first rank (pageLimit limit) (listed isListed (tables 0))).getLast?.map rank := by
    have hsame : firstWatermark isListed tables limit =
        (readRecords isListed tables limit 0 none).2 := by
      have hlist := @listRecords_eq _ isListed (tables 0) limit none
      rw [Option.map_none] at hlist
      unfold firstWatermark readRecords
      rw [Option.map_none, hlist]
    rw [hsame, hread]
  have hsorted := OrderedPage.pairwise_ordered
    (@nodup_rank_listed _ isListed (tables 0))
  have hpage := hsorted.sublist (List.take_sublist (pageLimit limit) _)
  unfold readUnder
  rw [hread, hwatermark]
  cases hget : (OrderedPage.first rank (pageLimit limit) (listed isListed (tables 0))).getLast? with
  | none => rfl
  | some last =>
    obtain ⟨init, hinit⟩ := List.getLast?_eq_some_iff.mp hget
    dsimp only [Option.map_some]
    congr 1
    · apply List.filter_eq_self.mpr
      intro row hrow
      have hle : rank row ≤ rank last := by
        change row ∈ OrderedPage.first rank (pageLimit limit) (listed isListed (tables 0)) at hrow
        change (OrderedPage.first rank (pageLimit limit) (listed isListed (tables 0))).Pairwise
          fun a b => rank a < rank b at hpage
        rw [hinit] at hrow hpage
        rcases List.mem_append.mp hrow with hrow | hrow
        · exact ((List.pairwise_append.mp hpage).2.2 row hrow last
            (List.mem_singleton_self last)).le
        · rw [List.mem_singleton.mp hrow]
      exact decide_eq_true hle
    · simp

/-- The walk under the watermark is complete when the first page holds all records that stay. -/
theorem records_under_iff :
    KeysetWalk.Completes rank (readUnder isListed tables limit)
        (fun row => isListed row = true ∧ ∀ i, row ∈ tables i) ↔
      ∀ row, isListed row = true → (∀ i, row ∈ tables i) →
        OrderedPage.position rank (rank row) (listed isListed (tables 0)) < pageLimit limit := by
  have hfirst := @readUnder_first _ isListed limit tables
  have hsorted := OrderedPage.pairwise_ordered
    (@nodup_rank_listed _ isListed (tables 0))
  rw [KeysetWalk.completes_iff_first (by rw [hfirst])
    (by rw [hfirst]; exact hsorted.sublist (List.take_sublist _ _)), hfirst]
  constructor
  · intro h row hlisted hstays
    exact ((OrderedPage.mem_first_iff nodup_rank_listed).mp (h row ⟨hlisted, hstays⟩)).2
  · intro h row ⟨hlisted, hstays⟩
    exact (OrderedPage.mem_first_iff nodup_rank_listed).mpr
      ⟨List.mem_filter.mpr ⟨hstays 0, hlisted⟩, h row hlisted hstays⟩

end Pages

def sampleRow (id : { text : List Char // '|' ∉ text }) : ObservabilityRow String where
  id := id
  occurredAt := ⟨1753430400000000000, by decide +kernel⟩
  payload := "{}"

def firstRow : ObservabilityRow String := sampleRow ⟨['a'], by decide⟩

def secondRow : ObservabilityRow String := sampleRow ⟨['b'], by decide⟩

/-- Two records of one time -/
def twoRows : KeyedTable (ObservabilityRow.id (α := String)) :=
  ⟨[firstRow, secondRow], List.nodup_cons.mpr ⟨by decide, List.nodup_singleton _⟩⟩

theorem firstRow_lt_secondRow : rank firstRow < rank secondRow := by
  rw [← isAfter_iff]
  decide +kernel

/-- Pages of one record: the walk under the watermark misses the second record. -/
theorem second_record_missed :
    ¬ KeysetWalk.Completes rank (readUnder (fun _ => true) (fun _ => twoRows) 1)
      (fun row => (fun _ => true) row = true ∧ ∀ _ : ℕ, row ∈ twoRows) := by
  rw [records_under_iff]
  intro h
  have hsecond := h secondRow rfl fun _ => List.mem_cons_of_mem _ (List.mem_singleton_self _)
  have hposition : OrderedPage.position rank (rank secondRow) (listed (fun _ => true) twoRows) =
      1 := by
    change [firstRow, secondRow].countP (fun r => rank r < rank secondRow) = 1
    simp [firstRow_lt_secondRow]
  rw [hposition] at hsecond
  exact absurd hsecond (by decide)

end RecordPages

/-- The walks over pages. The specs are complete under the watermark of the first page, as the
records are by their cursors alone. Under the watermark of their first page the records are
complete when that page holds all that stay. -/
theorem page_walks {α : Type} {before : SpecPages.SpecTable} {specs : ℕ → SpecPages.SpecTable}
    {isListed : ObservabilityRow α → Bool}
    {records : ℕ → KeyedTable (ObservabilityRow.id (α := α))} {limit : ℕ} (hlimit : 0 < limit)
    (hnamed : ∀ i, SpecPages.Named (specs i)) {settled : ℕ}
    (hspecs : ∀ j, settled ≤ j → specs j = specs settled)
    (hrecords : ∀ j, settled ≤ j → records j = records settled) :
    (∀ i cursor highWatermark,
      SpecPages.listSpecsPage (specs i) (specs i) cursor highWatermark limit =
        SpecPages.defaultSpecsPage (specs i) cursor highWatermark limit) ∧
    KeysetWalk.Completes ProcessSpec.name (SpecPages.readSpecs before specs limit)
      (fun spec => spec ∈ before ∧ ∀ i, spec ∈ specs i) ∧
    KeysetWalk.Completes RecordPages.rank (RecordPages.readRecords isListed records limit)
      (fun row => isListed row = true ∧ ∀ i, row ∈ records i) ∧
    (KeysetWalk.Completes RecordPages.rank (RecordPages.readUnder isListed records limit)
        (fun row => isListed row = true ∧ ∀ i, row ∈ records i) ↔
      ∀ row, isListed row = true → (∀ i, row ∈ records i) →
        OrderedPage.position RecordPages.rank (RecordPages.rank row)
          (RecordPages.listed isListed (records 0)) < pageLimit limit) := by
  refine ⟨?_, SpecPages.specs_walked hlimit hnamed hspecs, RecordPages.records_walked hrecords,
    RecordPages.records_under_iff⟩
  intro i cursor highWatermark
  exact SpecPages.listSpecsPage_eq_default (hnamed i) cursor highWatermark

def pagedSpec : ProcessSpec where
  definitionId := ⟨1⟩
  name := "web"
  command := "web"

def pagedSpecs : SpecPages.SpecTable := ⟨[pagedSpec], List.nodup_singleton _⟩

/-- One spec and two records of one page -/
theorem page_walks_settled :
    KeysetWalk.Completes ProcessSpec.name (SpecPages.readSpecs pagedSpecs (fun _ => pagedSpecs) 2)
      (fun spec => spec ∈ pagedSpecs ∧ ∀ _ : ℕ, spec ∈ pagedSpecs) ∧
    KeysetWalk.Completes RecordPages.rank
      (RecordPages.readUnder (fun _ => true) (fun _ => RecordPages.twoRows) 2)
      (fun row => (fun _ => true) row = true ∧ ∀ _ : ℕ, row ∈ RecordPages.twoRows) := by
  have hnamed : SpecPages.Named pagedSpecs := by
    intro spec hspec
    rw [List.mem_singleton.mp hspec]
    decide
  obtain ⟨_, hspecs, _, hunder⟩ := @page_walks _ pagedSpecs (fun _ => pagedSpecs) (fun _ => true)
    (fun _ => RecordPages.twoRows) 2 (by decide) (fun _ => hnamed) 0 (fun _ _ => rfl)
    (fun _ _ => rfl)
  refine ⟨hspecs, hunder.mpr ?_⟩
  intro row _ hstays
  have hfits : (RecordPages.listed (fun _ => true) RecordPages.twoRows).length ≤ pageLimit 2 := by
    decide
  have hmem : row ∈ RecordPages.listed (fun _ => true) RecordPages.twoRows :=
    List.mem_filter.mpr ⟨hstays 0, rfl⟩
  have hfirst := (@OrderedPage.perm_first _ _ _ RecordPages.rank _ _ hfits).mem_iff.mpr hmem
  exact ((OrderedPage.mem_first_iff RecordPages.nodup_rank_listed).mp hfirst).2

end Supervisor
