import TableGate.Proofs.Expression.Reading
import TableGate.Proofs.Integer
import TableGate.Proofs.Refusal

/-!
# Query strings and query documents agree

Most documents can also be said in a query string: `items` lists the items
that say the same, clause by clause. What a query string has no words for is
excluded by `Expressible`: ranges, filter values that are no texts, names that
hold the marks between the parts of an item, and bounds too long to be
written.

The two compilers trim, split and order on their own. That they agree is shown
clause by clause: each clause of the items is read back as the clause of the
document.

## Main results

* `OrderEntry.readEntry_text`: an order entry is read back.
* `compile_items`: the items compile to what the document compiles to, and
  where neither compiles both are not valid.
* `compile_items_limited`: a bound that is too long to be written is one of a
  document, but not one of items.
-/

namespace TableGate

open Result (bind_eq_ok refuse_ne_ok)
open Text (isBlank joinWith natText splitOn trimChars)

/-! ## Filters -/

namespace FilterEntry

/-- The value of a filter as the text it is. -/
def valueText (entry : FilterEntry) : String :=
  match entry.value with
  | .scalar (.text s) => s
  | _ => ""

/-- The item of a filter. -/
def item (entry : FilterEntry) : String × String :=
  (entry.column, entry.operator ++ "." ++ entry.valueText)

@[simp] theorem item_fst (entry : FilterEntry) :
    entry.item.1 = entry.column := rfl

/-- A filter that an item can say. -/
structure Expressible (entry : FilterEntry) : Prop where
  value_text : ∃ s, entry.value = .text s
  column_visible : Text.isAllBlank entry.column = false
  column_plain : '.' ∉ entry.column.toList
  column_free : entry.column ∉ Items.reserved
  operator_plain : '.' ∉ entry.operator.toList

theorem readFilter_item {entry : FilterEntry} (h : entry.Expressible) :
    Items.readFilter entry.item.1 entry.item.2 =
      Filter.build entry.column entry.operator entry.value false 0 := by
  obtain ⟨s, hValue⟩ := h.value_text
  have hName : Text.cut? '.' (trimChars entry.column.toList) = none :=
    Text.cut?_eq_none fun hDot =>
      h.column_plain (Text.mem_of_mem_trimChars hDot)
  have hCut : Text.cut? '.' (entry.operator ++ "." ++ s).toList =
      some (entry.operator.toList, s.toList) :=
    Text.cut?_eq_some_iff.2 ⟨by simp, h.operator_plain⟩
  have hText : entry.valueText = s := by rw [valueText, hValue]
  have hTrim : Text.trim (.ofList (trimChars entry.column.toList)) =
      Text.trim entry.column := Text.trim_ofList_trimChars _
  show Items.readFilter entry.column (entry.operator ++ "." ++ entry.valueText)
    = _
  rw [Items.readFilter, hText, hValue]
  split
  · next hEmpty => exact absurd hEmpty (Text.trimChars_ne_nil h.column_visible)
  · simp only [hName, hCut, String.ofList_toList]
    rw [Filter.build, Filter.build, hTrim]

end FilterEntry

/-! ## Order entries -/

namespace OrderEntry

/-- Whether an entry asks for descending order. -/
def isDesc (entry : OrderEntry) : Bool :=
  Text.lower (Text.trim entry.direction) = "desc"

/-- The word for nulls, in small letters. -/
def nullsWord (entry : OrderEntry) : String :=
  Text.lower (Text.trim entry.nulls)

/-- The words after the column of an entry. -/
def words (entry : OrderEntry) : List (List Char) :=
  (if entry.isDesc then "desc".toList else "asc".toList) ::
    if entry.nullsWord = "" then []
    else [("nulls" ++ entry.nullsWord).toList]

/-- The text of an entry in an order list. -/
def text (entry : OrderEntry) : List Char :=
  joinWith ['.'] (entry.column.toList :: entry.words)

/-- An order entry that an item can say. -/
structure Expressible (entry : OrderEntry) : Prop where
  column_visible : Text.isAllBlank entry.column = false
  column_plain : ∀ c ∈ entry.column.toList, c ≠ ',' ∧ c ≠ '.'
  nulls_known : entry.nullsWord ∈ ["", "first", "last"]

/-- The words of an expressible entry are one of these lists. -/
def wordLists : List (List (List Char)) :=
  ["desc".toList, "asc".toList].flatMap fun direction =>
    [[direction], [direction, "nullsfirst".toList],
      [direction, "nullslast".toList]]

theorem Expressible.words_mem {entry : OrderEntry} (h : entry.Expressible) :
    entry.words ∈ wordLists := by
  have hNulls := h.nulls_known
  simp only [List.mem_cons, List.not_mem_nil, or_false] at hNulls
  unfold words
  cases entry.isDesc <;> rcases hNulls with h | h | h <;> rw [h] <;> decide

/-- The words stand between the dots and end in a letter. -/
theorem wordLists_plain : ∀ words ∈ wordLists, words ≠ [] ∧
    (∀ word ∈ words, ',' ∉ word ∧ '.' ∉ word) ∧
      ∃ start last, joinWith ['.'] words = start ++ [last] ∧
        isBlank last = false ∧ ',' ∉ start ++ [last] := by
  have hAll : ∀ words ∈ wordLists, words ≠ [] ∧
      (∀ word ∈ words, ',' ∉ word ∧ '.' ∉ word) ∧
        joinWith ['.'] words ≠ [] ∧
          ((joinWith ['.'] words).getLast?.any fun c => !isBlank c) = true ∧
            ',' ∉ joinWith ['.'] words := by
    decide
  intro words hWords
  obtain ⟨hSome, hPlain, hText, hLast, hComma⟩ := hAll words hWords
  rw [List.getLast?_eq_some_getLast hText] at hLast
  refine ⟨hSome, hPlain, (joinWith ['.'] words).dropLast,
    (joinWith ['.'] words).getLast hText,
    (List.dropLast_append_getLast hText).symm,
    by simpa using hLast, ?_⟩
  rwa [List.dropLast_append_getLast]

/-- What the words mean is read from them. -/
theorem Expressible.apply_words {entry : OrderEntry} (h : entry.Expressible)
    (column : String) :
    entry.words.foldl (fun start word => OrderBy.apply start
        (.ofList (Text.lowerChars (trimChars word)))) { column } =
      { column, desc := entry.isDesc, nulls := entry.nullsWord } := by
  have hNulls := h.nulls_known
  simp only [List.mem_cons, List.not_mem_nil, or_false] at hNulls
  unfold words
  cases entry.isDesc <;> rcases hNulls with h | h | h <;> rw [h] <;> rfl

theorem Expressible.text_eq {entry : OrderEntry} (h : entry.Expressible) :
    entry.text =
      entry.column.toList ++ '.' :: joinWith ['.'] entry.words := by
  obtain ⟨word, others, hWords⟩ :=
    List.exists_cons_of_ne_nil (wordLists_plain _ h.words_mem).1
  rw [text, hWords, joinWith, List.append_assoc, List.singleton_append]
  exact List.cons_ne_nil _ _

theorem Expressible.comma_not_mem_text {entry : OrderEntry}
    (h : entry.Expressible) : ',' ∉ entry.text := by
  obtain ⟨-, -, start, last, hText, -, hComma⟩ :=
    wordLists_plain _ h.words_mem
  have hColumn : ',' ∉ entry.column.toList := fun hMem =>
    (h.column_plain _ hMem).1 rfl
  rw [h.text_eq, hText]
  simp only [List.mem_append, List.mem_cons] at hComma hColumn ⊢
  simpa [hColumn] using hComma

/-- An entry is read back from its text. -/
theorem readEntry_text {entry : OrderEntry} (h : entry.Expressible) :
    OrderBy.readEntry entry.text = .ok (some (Document.orderBy entry)) := by
  obtain ⟨hWords, hPlain, start, last, hText, hLast, -⟩ :=
    wordLists_plain _ h.words_mem
  obtain ⟨before, after, hColumn, hBefore, hAfter⟩ :=
    Text.exists_eq_trimChars entry.column.toList
  have hName := Text.trimChars_ne_nil h.column_visible
  have hHead : ∀ c ∈ (trimChars entry.column.toList).head?,
      isBlank c = false := Text.head?_stripChars
  have hEnd : ∀ c ∈ (trimChars entry.column.toList).getLast?,
      isBlank c = false := Text.getLast?_stripChars
  -- Only the blanks before the column stand at an end of the text.
  have hTrim : trimChars entry.text = trimChars entry.column.toList ++ after ++
      '.' :: joinWith ['.'] entry.words := by
    have hParts : entry.text = before ++ (trimChars entry.column.toList ++
        after ++ '.' :: joinWith ['.'] entry.words) ++ [] := by
      rw [h.text_eq, List.append_nil, ← List.append_assoc,
        ← List.append_assoc, ← hColumn]
    rw [hParts]
    refine Text.trimChars_between hBefore (by simp) ?_ ?_
    · rw [List.append_assoc, List.head?_append_of_ne_nil _ hName]
      exact hHead
    · intro c hc
      rw [hText, ← List.cons_append, ← List.append_assoc,
        List.getLast?_concat] at hc
      rwa [← Option.some.inj hc]
  have hDot : '.' ∉ trimChars entry.column.toList ++ after := by
    intro hMem
    refine (h.column_plain '.' ?_).2 rfl
    rw [hColumn, List.append_assoc]
    exact List.mem_append_right _ hMem
  have hSplit : splitOn '.' (trimChars entry.text) =
      (trimChars entry.column.toList ++ after) :: entry.words := by
    rw [hTrim, Text.splitOn_append_cons hDot,
      Text.splitOn_joinWith hWords fun word hWord => (hPlain word hWord).2]
  have hLead : trimChars (trimChars entry.column.toList ++ after) =
      trimChars entry.column.toList := by
    have hNone : ∀ c ∈ ([] : List Char), isBlank c = true :=
      List.forall_mem_nil _
    have hAround := Text.trimChars_between hNone hAfter hHead hEnd
    rwa [List.nil_append] at hAround
  rw [OrderBy.readEntry]
  split
  · next hEmpty =>
      rw [hTrim] at hEmpty
      exact absurd hEmpty (by simp)
  · rw [hSplit]
    simp only [hLead]
    exact congrArg (fun entry => Except.ok (some entry)) (h.apply_words _)

/-- An order list is read back from the texts of its entries. -/
theorem read_texts {order : List OrderEntry}
    (h : ∀ entry ∈ order, entry.Expressible) :
    OrderBy.read (.ofList (joinWith [','] (order.map text))) =
      .ok (order.map Document.orderBy) := by
  cases order with
  | nil => rfl
  | cons entry others =>
      have hSplit : splitOn ','
          (joinWith [','] ((entry :: others).map text)) =
            (entry :: others).map text := by
        refine Text.splitOn_joinWith (by simp) fun piece hPiece => ?_
        obtain ⟨e, he, rfl⟩ := List.mem_map.1 hPiece
        exact (h e he).comma_not_mem_text
      have hEntries : ((entry :: others).map text).mapM OrderBy.readEntry =
          .ok ((entry :: others).map fun e => some (Document.orderBy e)) := by
        rw [Result.mapM_eq_ok, List.forall₂_map_left_iff,
          List.forall₂_map_right_iff, List.forall₂_same]
        exact fun e he => readEntry_text (h e he)
      rw [OrderBy.read, String.toList_ofList, hSplit, hEntries]
      refine congrArg Except.ok ?_
      rw [List.filterMap_map]
      show (entry :: others).filterMap (fun e => some (Document.orderBy e)) = _
      exact congrFun List.filterMap_eq_map' _

end OrderEntry

/-! ## Lists and bounds -/

theorem readColumnList_joinWith {entries : List String}
    (h : ∀ entry ∈ entries, ',' ∉ entry.toList) :
    readColumnList (.ofList (joinWith [','] (entries.map String.toList))) =
      (entries.map Text.trim).filter (· != "") := by
  have hEach : ∀ pieces : List String,
      ((pieces.map String.toList).map trimChars).filterMap (fun entry =>
        if entry = [] then none else some (String.ofList entry)) =
          (pieces.map Text.trim).filter (· != "") := by
    intro pieces
    induction pieces with
    | nil => rfl
    | cons piece others ih =>
        by_cases hEmpty : trimChars piece.toList = []
        · have hTrim : Text.trim piece = "" := by rw [Text.trim, hEmpty]
          simp only [List.map_cons, List.filterMap_cons, hEmpty, if_true, ih,
            hTrim]
          rfl
        · have hTrim : Text.trim piece ≠ "" := by
            simpa [Text.trim] using hEmpty
          simp only [List.map_cons, List.filterMap_cons, hEmpty, if_false, ih]
          rw [List.filter_cons_of_pos (by simpa using hTrim), Text.trim]
  cases entries with
  | nil => rfl
  | cons entry others =>
      have hSplit : splitOn ','
          (joinWith [','] ((entry :: others).map String.toList)) =
            (entry :: others).map String.toList := by
        refine Text.splitOn_joinWith (by simp) fun piece hPiece => ?_
        obtain ⟨e, he, rfl⟩ := List.mem_map.1 hPiece
        exact h e he
      rw [readColumnList, String.toList_ofList, hSplit, hEach]

/-- The text of a number is a bound, unless it is too long. -/
theorem readBound_natText_eq (name : String) (n : Nat) :
    readBound name (natText n) =
      if Text.isWritable (n : Int) then .ok (some (n : Int))
      else refuse (.bound name (natText n)) := by
  have hTrim : Text.trim (natText n) = natText n := by
    rw [Text.trim, natText, String.toList_ofList, Text.trimChars_natDigits]
  have hPos : ¬(n : Int) < 0 := Int.not_lt.2 (Int.natCast_nonneg n)
  rw [readBound, Text.isAllBlank_natText, hTrim, Text.readInteger_natText]
  by_cases h : Text.isWritable (n : Int) = true
  · simp only [if_pos h, if_neg hPos, Bool.false_eq_true, if_false]
  · simp only [if_neg h, Bool.false_eq_true, if_false]

theorem readBound_natText (name : String) {n : Nat}
    (h : Text.isWritable (n : Int) = true) :
    readBound name (natText n) = .ok (some (n : Int)) := by
  rw [readBound_natText_eq, if_pos h]

/-! ## Documents as items -/

namespace Items

/-- One item of a key for each value. -/
def keyed (key : String) (values : List String) : Items := values.map (key, ·)

theorem first?_append (a b : Items) (key : String) :
    first? (a ++ b) key = (first? a key).or (first? b key) := by
  simp only [first?, List.find?_append]
  cases a.find? fun item => item.1 == key <;> rfl

theorem first?_keyed (key other : String) (values : List String) :
    first? (keyed key values) other =
      if key = other then values.head? else none := by
  cases values with
  | nil => simp [first?, keyed]
  | cons value values =>
      by_cases hKey : key = other
      · simp [first?, keyed, hKey]
      · simp [first?, keyed, hKey, List.find?_map, Function.comp_def]

end Items

namespace Document

/-- The items that say what a document says. -/
def items (document : Document) : Items :=
  .keyed "select" [document.select] ++
    document.filters.map FilterEntry.item ++
    .keyed "or" document.orFilters ++
    .keyed "and" document.andFilters ++
    .keyed "order"
      [.ofList (joinWith [','] (document.order.map OrderEntry.text))] ++
    .keyed "limit" (document.limit.map natText).toList ++
    .keyed "offset" (document.offset.map natText).toList ++
    .keyed "count" document.count.toList ++
    .keyed "group_by"
      [.ofList (joinWith [','] (document.groupBy.map String.toList))] ++
    .keyed "cursor" document.cursor.toList ++
    .keyed "cursor_column" document.cursorColumn.toList

/-- A document that items can say. A number of more than 4300 digits has no
decimal text. -/
structure Expressible (document : Document) : Prop where
  no_betweens : document.betweens = []
  filters : ∀ entry ∈ document.filters, entry.Expressible
  order : ∀ entry ∈ document.order, entry.Expressible
  groupBy_plain : ∀ entry ∈ document.groupBy, ',' ∉ entry.toList
  bounds_writable : ∀ n ∈ document.limit.toList ++ document.offset.toList,
    Text.isWritable (n : Int) = true

variable {document : Document}

/-- No filter takes the place of a clause. -/
theorem Expressible.first?_filters (h : document.Expressible) {key : String}
    (hKey : key ∈ Items.reserved) :
    Items.first? (document.filters.map FilterEntry.item) key = none := by
  have hNone : (document.filters.map FilterEntry.item).find?
      (fun item => item.1 == key) = none := by
    rw [List.find?_eq_none]
    intro item hItem hSame
    obtain ⟨entry, hEntry, rfl⟩ := List.mem_map.1 hItem
    have hColumn : entry.column = key := by simpa using hSame
    exact (h.filters entry hEntry).column_free (hColumn ▸ hKey)
  rw [Items.first?, hNone]
  rfl

/-- The items that are filters are those of the filters. -/
theorem Expressible.filter_items (h : document.Expressible) :
    document.items.filter (fun item => !Items.reserved.contains item.1) =
      document.filters.map FilterEntry.item := by
  have hKeyed : ∀ (key : String) (values : List String),
      key ∈ Items.reserved → (Items.keyed key values).filter
        (fun item => !Items.reserved.contains item.1) = [] := by
    intro key values hKey
    rw [List.filter_eq_nil_iff]
    intro item hItem
    obtain ⟨value, -, rfl⟩ := List.mem_map.1 hItem
    simpa using hKey
  have hFilters : (document.filters.map FilterEntry.item).filter
      (fun item => !Items.reserved.contains item.1) =
        document.filters.map FilterEntry.item := by
    rw [List.filter_eq_self]
    intro item hItem
    obtain ⟨entry, hEntry, rfl⟩ := List.mem_map.1 hItem
    simpa using (h.filters entry hEntry).column_free
  simp only [items, List.filter_append, hFilters, List.append_nil,
    List.nil_append, hKeyed "select" _ (by decide),
    hKeyed "or" _ (by decide), hKeyed "and" _ (by decide),
    hKeyed "order" _ (by decide), hKeyed "limit" _ (by decide),
    hKeyed "offset" _ (by decide), hKeyed "count" _ (by decide),
    hKeyed "group_by" _ (by decide), hKeyed "cursor" _ (by decide),
    hKeyed "cursor_column" _ (by decide)]

/-- The items that are groups are those of the groups. -/
theorem Expressible.group?_items (h : document.Expressible) :
    document.items.filterMap Items.group? =
      document.orFilters.map (Connective.or, ·) ++
        document.andFilters.map (Connective.and, ·) := by
  have hKeyed : ∀ (key : String) (values : List String), key ≠ "or" →
      key ≠ "and" → (Items.keyed key values).filterMap Items.group? = [] := by
    intro key values hOr hAnd
    rw [List.filterMap_eq_nil_iff]
    intro item hItem
    obtain ⟨value, -, rfl⟩ := List.mem_map.1 hItem
    rw [Items.group?, if_neg hOr, if_neg hAnd]
  have hOr : (Items.keyed "or" document.orFilters).filterMap Items.group? =
      document.orFilters.map (Connective.or, ·) := by
    rw [Items.keyed, List.filterMap_map]
    exact congrFun (List.filterMap_eq_map' (f := (Connective.or, ·))) _
  have hAnd : (Items.keyed "and" document.andFilters).filterMap Items.group? =
      document.andFilters.map (Connective.and, ·) := by
    rw [Items.keyed, List.filterMap_map]
    exact congrFun (List.filterMap_eq_map' (f := (Connective.and, ·))) _
  have hFilters : (document.filters.map FilterEntry.item).filterMap
      Items.group? = [] := by
    rw [List.filterMap_eq_nil_iff]
    intro item hItem
    obtain ⟨entry, hEntry, rfl⟩ := List.mem_map.1 hItem
    have hFree := (h.filters entry hEntry).column_free
    rw [Items.group?, if_neg, if_neg]
    all_goals
      intro hSame
      have hColumn : entry.column = _ := hSame
      rw [hColumn] at hFree
      exact hFree (by decide)
  simp only [items, List.filterMap_append, hOr, hAnd, hFilters]
  simp [hKeyed]

/-! ## Compiling -/

/-- A clause of the items is the clause with its key. -/
theorem Expressible.first?_items (h : document.Expressible) :
    document.items.first? "select" = some document.select ∧
    document.items.first? "order" = some
      (.ofList (joinWith [','] (document.order.map OrderEntry.text))) ∧
    document.items.first? "limit" = document.limit.map natText ∧
    document.items.first? "offset" = document.offset.map natText ∧
    document.items.first? "count" = document.count ∧
    document.items.first? "group_by" = some
      (.ofList (joinWith [','] (document.groupBy.map String.toList))) ∧
    document.items.first? "cursor" = document.cursor ∧
    document.items.first? "cursor_column" = document.cursorColumn := by
  have hFilters : ∀ key ∈ Items.reserved,
      Items.first? (document.filters.map FilterEntry.item) key = none :=
    fun _ hKey => h.first?_filters hKey
  refine ⟨?_, ?_, ?_, ?_, ?_, ?_, ?_, ?_⟩
  all_goals
    simp only [items, Items.first?_append, Items.first?_keyed]
    rw [hFilters _ (by decide)]
    simp

/-- A page bound is read back. -/
theorem clause_bound (name : String) {bound : Option Nat}
    (h : ∀ n ∈ bound, Text.isWritable (n : Int) = true) {items : Items}
    (hItem : items.first? name = bound.map natText) :
    items.clause name none (readBound name) = .ok (bound.map Int.ofNat) := by
  rw [Items.clause, hItem]
  cases bound with
  | none => rfl
  | some n => exact readBound_natText name (h n rfl)

/-- The filters of a document without ranges: direct ones, then groups. -/
theorem Expressible.compileFilters_eq (h : document.Expressible) :
    Items.fromOne document.compileFilters = (do
      let plain ← document.filters.mapM fun entry =>
        Filter.build entry.column entry.operator entry.value false 0
      let grouped ← Items.fromOne (Items.readGroups
        (document.orFilters.map (Connective.or, ·) ++
          document.andFilters.map (Connective.and, ·)))
      return plain ++ grouped) := by
  have hRun : ∀ direct : List Filter, Items.fromOne (do
      let ranges ← ([] : List Between).mapM expandBetween
      let grouped ← Items.readGroups
        (document.orFilters.map (Connective.or, ·) ++
          document.andFilters.map (Connective.and, ·))
      return direct ++ ranges.flatten ++ grouped) = (do
      let grouped ← Items.fromOne (Items.readGroups
        (document.orFilters.map (Connective.or, ·) ++
          document.andFilters.map (Connective.and, ·)))
      return direct ++ grouped) := by
    intro direct
    rw [List.mapM_nil, pure_bind, Items.fromOne, Items.fromOne,
      ExceptT.run_bind, StateT.run_bind, List.flatten_nil, List.append_nil]
    rcases (Items.readGroups _).run.run 1 with ⟨_ | _, _⟩ <;> rfl
  rw [compileFilters, h.no_betweens, Items.fromOne, ExceptT.run_bind,
    StateT.run_bind, Numbering.run_mapM_lift]
  cases document.filters.mapM fun entry =>
      Filter.build entry.column entry.operator entry.value false 0 with
  | error e => rfl
  | ok direct => exact hRun direct

theorem Expressible.mapM_readFilter (h : document.Expressible) :
    (document.filters.map FilterEntry.item).mapM
      (fun item => Items.readFilter item.1 item.2) =
        document.filters.mapM fun entry =>
          Filter.build entry.column entry.operator entry.value false 0 := by
  have hFilters := h.filters
  revert hFilters
  generalize document.filters = filters
  intro hFilters
  induction filters with
  | nil => rfl
  | cons entry others ih =>
      rw [List.map_cons, List.mapM_cons, List.mapM_cons,
        FilterEntry.readFilter_item (hFilters entry (by simp)),
        ih fun e he => hFilters e (List.mem_cons_of_mem _ he)]

/-- The two compilers take the same steps in the same order. -/
theorem Expressible.compile_eq (h : document.Expressible) :
    document.items.compile = document.compile := by
  obtain ⟨hSelect, hOrder, hLimit, hOffset, hCount, hGroupBy, hCursor,
    hColumn⟩ := h.first?_items
  have hLimitClause := clause_bound "limit"
    (fun n hn => h.bounds_writable n (by simp [Option.mem_def.1 hn])) hLimit
  have hOffsetClause := clause_bound "offset"
    (fun n hn => h.bounds_writable n (by simp [Option.mem_def.1 hn])) hOffset
  rw [Items.compile, compile, h.filter_items, h.group?_items,
    h.mapM_readFilter, h.compileFilters_eq, hColumn, hCursor, hGroupBy,
    hLimitClause, hOffsetClause]
  simp only [Items.clause, hSelect, hOrder, hCount, Option.map_some,
    Option.getD_some, OrderEntry.read_texts h.order,
    readColumnList_joinWith h.groupBy_plain, bind_assoc, pure_bind]
  cases document.count <;> rfl

/-- The items that say what a document says compile to what the document
compiles to, or neither request is valid. -/
theorem compile_items (h : document.Expressible) :
    (∃ params, document.items.compile = .ok params ∧
      document.compile = .ok params) ∨
    ∃ cause, document.items.compile = .error (.invalid cause) ∧
      document.compile = .error (.invalid cause) := by
  rw [h.compile_eq]
  cases hCompile : document.compile with
  | ok params => exact Or.inl ⟨params, rfl, rfl⟩
  | error e =>
      obtain ⟨cause, rfl⟩ := document.compile_onlyRefuses e hCompile
      exact Or.inr ⟨cause, rfl, rfl⟩

/-- A document with every clause a query string has. -/
def sample : Document where
  select := "id, data->name,total:sum(price)"
  filters := [⟨" age", "GTE", .text "18.5"⟩, ⟨"tag", "in", .text "(a,b)"⟩]
  orFilters := ["(a.eq.1,or(b.eq.2))", ""]
  andFilters := ["c.eq.3,or(d.eq.4,e.is.null)"]
  order := [⟨"age ", " DESC", "Last "⟩, ⟨"id", "up", ""⟩]
  limit := some 10
  offset := some 0
  count := some "exact"
  groupBy := [" tag", ""]
  cursor := some " "
  cursorColumn := some "id"

theorem compile_items_sample : sample.Expressible ∧
    ((∃ params, sample.items.compile = .ok params ∧
      sample.compile = .ok params) ∨
    ∃ cause, sample.items.compile = .error (.invalid cause) ∧
      sample.compile = .error (.invalid cause)) := by
  have hFilters : ∀ entry ∈ sample.filters, entry.Expressible := by
    intro entry hEntry
    simp only [sample, List.mem_cons, List.not_mem_nil, or_false] at hEntry
    rcases hEntry with rfl | rfl
    all_goals exact ⟨⟨_, rfl⟩, by decide, by decide, by decide, by decide⟩
  have hOrder : ∀ entry ∈ sample.order, entry.Expressible := by
    intro entry hEntry
    simp only [sample, List.mem_cons, List.not_mem_nil, or_false] at hEntry
    rcases hEntry with rfl | rfl
    all_goals
      exact ⟨by decide, @of_decide_eq_true _ (List.decidableBAll _ _) rfl,
        by decide⟩
  have hBounds : ∀ n ∈ sample.limit.toList ++ sample.offset.toList,
      Text.isWritable (n : Int) = true := by
    intro n hn
    simp only [sample, Option.toList_some, List.singleton_append,
      List.mem_cons, List.not_mem_nil, or_false] at hn
    rcases hn with rfl | rfl
    all_goals exact Text.isWritable_iff.2 (by decide)
  have h : sample.Expressible :=
    ⟨rfl, hFilters, hOrder, by decide, hBounds⟩
  exact ⟨h, compile_items h⟩

/-- A document with nothing but a limit. -/
def limited (limit : Nat) : Document where
  limit := some limit

theorem limited_compile (limit : Nat) :
    ∃ params, (limited limit).compile = .ok params := ⟨_, rfl⟩

/-- Where the limit is too long to be written, its item is not read. -/
theorem limited_items_compile {limit : Nat}
    (h : ¬Text.isWritable (limit : Int) = true) :
    ∃ cause, (limited limit).items.compile = .error (.invalid cause) := by
  have hItem : (limited limit).items.first? "limit" = some (natText limit) :=
    rfl
  have hClause : (limited limit).items.clause "limit" none
      (readBound "limit") = refuse (.bound "limit" (natText limit)) := by
    rw [Items.clause, hItem]
    dsimp only
    rw [readBound_natText_eq, if_neg h]
  refine (Items.compile_onlyRefuses _).exists_invalid fun params hRead => ?_
  obtain ⟨selection, -, hRead⟩ := bind_eq_ok.1 hRead
  obtain ⟨plain, -, hRead⟩ := bind_eq_ok.1 hRead
  obtain ⟨grouped, -, hRead⟩ := bind_eq_ok.1 hRead
  obtain ⟨cursorColumn, -, hRead⟩ := bind_eq_ok.1 hRead
  obtain ⟨order, -, hRead⟩ := bind_eq_ok.1 hRead
  obtain ⟨bound, hBound, -⟩ := bind_eq_ok.1 hRead
  rw [hClause] at hBound
  exact refuse_ne_ok hBound

/-- A document holds its limit as a number, of any size, but as an item the
limit is a text, and one that is too long is not read. -/
theorem compile_items_limited :
    ((limited (10 ^ Text.maxIntegerDigits)).betweens = [] ∧
      (limited (10 ^ Text.maxIntegerDigits)).filters = [] ∧
      (limited (10 ^ Text.maxIntegerDigits)).order = [] ∧
      (limited (10 ^ Text.maxIntegerDigits)).groupBy = []) ∧
    (∃ params,
      (limited (10 ^ Text.maxIntegerDigits)).compile = .ok params) ∧
    ∃ cause, (limited (10 ^ Text.maxIntegerDigits)).items.compile =
      .error (.invalid cause) :=
  ⟨⟨rfl, rfl, rfl, rfl⟩, limited_compile _, limited_items_compile <| by
    rw [Text.isWritable_natCast]
    exact Nat.lt_irrefl _⟩

example : sample.items = [
    ("select", "id, data->name,total:sum(price)"), (" age", "GTE.18.5"),
    ("tag", "in.(a,b)"), ("or", "(a.eq.1,or(b.eq.2))"), ("or", ""),
    ("and", "c.eq.3,or(d.eq.4,e.is.null)"),
    ("order", "age .desc.nullslast,id.asc"), ("limit", "10"), ("offset", "0"),
    ("count", "exact"), ("group_by", " tag,"), ("cursor", " "),
    ("cursor_column", "id")] := by
  decide

end Document
end TableGate
