import TableGate.Proofs.Query.SelectLists
import TableGate.Proofs.Sql.Command
import TableGate.Proofs.Sql.Selection

/-!
# Stars in select lists

A star asks for every column of the table, beside what the other items of a
select list ask for. It leaves nothing behind when the list is read, and a
SELECT is written with a star only if nothing at all is left. So a star stands
for every column as long as there are only stars and blanks beside it. Next to
anything else it is lost: the statement returns what is named, item by item,
and every column only if every column is named.

## Main results

* `mem_rendered_iff`: the items of a rendered list are what its pieces are
  rendered as.
* `star_returns_each_iff`: when a SELECT with a star among its pieces returns
  every column of the table.
* `star_lost`: a star next to a column.
-/

namespace TableGate

/-! ## Pieces of a select list -/

namespace Selection

open Text (trimChars)

/-- A piece that asks for every column. -/
def IsStar (piece : List Char) : Prop := trimChars piece = ['*']

instance (piece : List Char) : Decidable (IsStar piece) :=
  inferInstanceAs (Decidable (_ = _))

/-- A piece that leaves nothing behind: a star or blanks. -/
def IsVacant (piece : List Char) : Prop := trimChars piece = [] ∨ IsStar piece

instance (piece : List Char) : Decidable (IsVacant piece) :=
  inferInstanceAs (Decidable (_ ∨ _))

/-- A piece is the plain name of a column, with blanks around it at most. -/
def Names (piece : List Char) (name : String) : Prop :=
  isName name.toList = true ∧ trimChars piece = name.toList

instance (piece : List Char) (name : String) : Decidable (Names piece name) :=
  inferInstanceAs (Decidable (_ ∧ _))

theorem IsStar.exists_visible {piece : List Char} (h : IsStar piece) :
    ∃ c ∈ piece, Text.isBlank c = false := by
  refine ⟨'*', Text.mem_of_mem_trimChars ?_, by decide⟩
  rw [h]
  exact List.mem_cons_self

/-- What an item tells of the piece that it is read from. -/
def Item.Tells (piece : List Char) : Item → Prop
  | everything => IsVacant piece
  | column name => trimChars piece = name.toList ∧ ¬IsVacant piece
  | aggregate _ => ¬IsVacant piece

theorem tells_of_readItem {piece : List Char} {item : Item}
    (h : readItem piece = .ok item) : item.Tells piece := by
  unfold readItem at h
  simp only at h
  split at h
  · next hVacant =>
      rw [← Except.ok.inj h]
      exact hVacant
  · next hOther =>
      split at h
      · rw [← Except.ok.inj h]
        exact ⟨String.toList_ofList.symm, hOther⟩
      · split at h
        · exact absurd h Result.refuse_ne_ok
        · next call _ =>
            cases hAggregate : aggregate call with
            | error e =>
                rw [hAggregate] at h
                cases h
            | ok a =>
                rw [hAggregate] at h
                rw [← Except.ok.inj h]
                exact hOther

/-- A plain name is read as the column of that name. -/
theorem readItem_identifier {piece : List Char} {id : Identifier}
    (h : trimChars piece = id.text.toList) :
    readItem piece = .ok (.column id.text) := by
  have hOther : ¬(trimChars piece = [] ∨ trimChars piece = ['*']) := by
    rw [h]
    rintro (hEmpty | hStar)
    · exact id.toList_ne_nil hEmpty
    · exact id.text_ne_star (String.toList_inj.1 hStar)
  have hPlain : (trimChars piece).any isParen = false := by
    rw [h, List.any_eq_false]
    intro c hc hParen
    refine id.notMem_text ?_ hc
    rw [isParen, Bool.or_eq_true, beq_iff_eq, beq_iff_eq] at hParen
    rcases hParen with rfl | rfl
    · rfl
    · rfl
  simp only [readItem, if_neg hOther, hPlain, Bool.not_false, if_true]
  rw [h, String.ofList_toList]

/-- What is left by a filter that undoes a constructor. -/
theorem mem_filterMap_iff {α β : Type} {f : α → Option β} {make : β → α}
    (h : ∀ a b, f a = some b ↔ a = make b) {xs : List α} {b : β} :
    b ∈ xs.filterMap f ↔ make b ∈ xs := by
  simp only [List.mem_filterMap, h, exists_eq_right]

theorem mem_columns_ofItems {items : List Item} {name : String} :
    name ∈ (ofItems items).columns ↔ .column name ∈ items := by
  refine mem_filterMap_iff fun item name => ?_
  cases item <;> simp

theorem mem_aggregations_ofItems {items : List Item} {a : Aggregation} :
    a ∈ (ofItems items).aggregations ↔ .aggregate a ∈ items := by
  refine mem_filterMap_iff fun item a => ?_
  cases item <;> simp

section Read

variable {text : String} {pieces : List (List Char)} {selection : Selection}
  (hPieces : Group.Decomposes text.toList pieces)
  (hStar : ∃ piece ∈ pieces, IsStar piece)
  (hRead : read text = .ok selection)
include hPieces hStar hRead

/-- A list with a star is read piece by piece. -/
theorem exists_items_of_read :
    ∃ items, pieces.mapM readItem = .ok items ∧ selection = ofItems items := by
  obtain ⟨star, hMem, hIs⟩ := hStar
  have hList := read_joinWith hPieces.segments ⟨star, hMem, hIs.exists_visible⟩
  rw [hPieces.joined, String.ofList_toList, hRead] at hList
  cases hItems : pieces.mapM readItem with
  | error e =>
      rw [hItems] at hList
      cases hList
  | ok items =>
      rw [hItems] at hList
      exact ⟨items, rfl, Except.ok.inj hList⟩

theorem mem_columns_iff {name : String} :
    name ∈ selection.columns ↔
      ∃ piece ∈ pieces, readItem piece = .ok (.column name) := by
  obtain ⟨items, hItems, rfl⟩ := exists_items_of_read hPieces hStar hRead
  rw [mem_columns_ofItems, Result.mem_mapM_iff hItems]

theorem mem_aggregations_iff {a : Aggregation} :
    a ∈ selection.aggregations ↔
      ∃ piece ∈ pieces, readItem piece = .ok (.aggregate a) := by
  obtain ⟨items, hItems, rfl⟩ := exists_items_of_read hPieces hStar hRead
  rw [mem_aggregations_ofItems, Result.mem_mapM_iff hItems]

/-- Every piece of a list that is read is read itself. -/
theorem exists_readItem {piece : List Char} (hMem : piece ∈ pieces) :
    ∃ item, readItem piece = .ok item := by
  obtain ⟨items, hItems, -⟩ := exists_items_of_read hPieces hStar hRead
  exact Result.exists_mapM_eq_ok_iff.1 ⟨items, hItems⟩ piece hMem

end Read

end Selection

/-- A request with the columns and aggregates of a select list. -/
def Params.selecting (params : Params) (selection : Selection) : Params :=
  { params with
    select := selection.columns
    aggregations := selection.aggregations }

namespace Sql

open Selection (IsStar IsVacant Names)
open Result (bind_eq_ok pure_eq_ok)

/-! ## Items of the rendered list -/

/-- What a piece of a select list is rendered as. -/
inductive RenderedAs (piece : List Char) : Fragment → Prop
  | column {name : String} {item : Fragment}
      (hRead : Selection.readItem piece = .ok (.column name))
      (hItem : selectColumn name = .ok item) : RenderedAs piece item
  | aggregate {a : Aggregation} {item : Fragment}
      (hRead : Selection.readItem piece = .ok (.aggregate a))
      (hItem : selectAggregate a = .ok item) : RenderedAs piece item

/-- The items of the select list of a statement. -/
def Statement.selected? (s : Statement) : Option (List Fragment) :=
  (s.clause? .select).bind (splitAround? .comma 0)

/-- Items return every column of a table: a star is among them, or each of the
columns by its name. -/
def ReturnsEach (table : Table) (items : List Fragment) : Prop :=
  [.word .star] ∈ items ∨ ∀ name ∈ table.columnNames,
    ∃ id : Identifier, id.text = name ∧ [.column id] ∈ items

/-- Only a plain name is selected as a column under its own name. -/
theorem selectColumn_eq_column_iff {name : String} {id : Identifier} :
    selectColumn name = .ok [.column id] ↔ name = id.text := by
  constructor
  · intro h
    obtain ⟨path, hPath, h⟩ := bind_eq_ok.1 h
    split at h
    · obtain ⟨expression, -, h⟩ := bind_eq_ok.1 h
      obtain ⟨label, -, h⟩ := bind_eq_ok.1 h
      have hLength := congrArg List.length (pure_eq_ok.1 h)
      rw [List.length_append, List.length_cons, List.length_singleton]
        at hLength
      have hShort : expression.length + (1 + 1) = 1 := hLength
      omega
    · obtain ⟨piece, hColumn, h⟩ := bind_eq_ok.1 h
      obtain ⟨other, hName, hColumn⟩ := bind_eq_ok.1 hColumn
      rw [← pure_eq_ok.1 hColumn] at h
      have hSame := Piece.column.inj (List.cons.inj (pure_eq_ok.1 h)).1
      rw [← hSame, identifier_eq_ok hName]
  · rintro rfl
    rw [selectColumn, id.ofColumn_text, id.column_text]
    rfl

/-- What a piece is rendered as makes a column of its own, and a star makes
none. -/
theorem RenderedAs.ne_star {piece : List Char} {item : Fragment}
    (h : RenderedAs piece item) : item ≠ [.word .star] := by
  rintro rfl
  cases h with
  | column hRead hItem =>
      obtain ⟨path, -, hIs⟩ := isItem_selectColumn hItem
      cases hIs.makes
  | aggregate hRead hItem =>
      cases (isItem_selectAggregate hItem).makes

theorem RenderedAs.not_isVacant {piece : List Char} {item : Fragment}
    (h : RenderedAs piece item) : ¬IsVacant piece := by
  cases h with
  | column hRead hItem => exact (Selection.tells_of_readItem hRead).2
  | aggregate hRead hItem => exact Selection.tells_of_readItem hRead

/-- A piece returns a column of the table exactly if it is its name. -/
theorem renderedAs_column_iff {piece : List Char} {id : Identifier} :
    RenderedAs piece [.column id] ↔ Names piece id.text := by
  constructor
  · intro h
    refine ⟨id.isName, ?_⟩
    cases h with
    | column hRead hItem =>
        obtain rfl := selectColumn_eq_column_iff.1 hItem
        exact (Selection.tells_of_readItem hRead).1
    | aggregate hRead hItem =>
        -- An aggregate shows no column of the table as it is.
        have hMakes := (isItem_selectAggregate hItem).makes
        have hShows := congrArg ResultColumn.shows (Option.some.inj hMakes)
        cases hShows
  · rintro ⟨-, hText⟩
    exact .column (Selection.readItem_identifier hText)
      (selectColumn_eq_column_iff.2 rfl)

/-- The items of a rendered select list: a star for no columns and no
aggregates, else the renderings of them all. -/
theorem exists_items_of_selectList {params : Params} {list : Fragment}
    (h : selectList params = .ok list) :
    ∃ columns aggregates,
      (params.select.filter (· != "*")).mapM selectColumn = .ok columns ∧
      params.aggregations.mapM selectAggregate = .ok aggregates ∧
      splitAround? .comma 0 list = some
        (if columns ++ aggregates = [] then [[.word .star]]
          else columns ++ aggregates) := by
  obtain ⟨columns, hColumns, h⟩ := bind_eq_ok.1 h
  obtain ⟨aggregates, hAggregates, h⟩ := bind_eq_ok.1 h
  refine ⟨columns, aggregates, hColumns, hAggregates, ?_⟩
  split at h
  · next hNone =>
      rw [← pure_eq_ok.1 h, if_pos hNone]
      rfl
  · next hSome =>
      obtain ⟨made, -, hItems⟩ := isItem_selected hColumns hAggregates
      rw [← pure_eq_ok.1 h, if_neg hSome]
      exact splitAround?_isItem hItems hSome

section Rendered

variable {text : String} {pieces : List (List Char)} {selection : Selection}
  {columns aggregates : List Fragment}
  (hPieces : Group.Decomposes text.toList pieces)
  (hStar : ∃ piece ∈ pieces, IsStar piece)
  (hRead : Selection.read text = .ok selection)
  (hColumns : (selection.columns.filter (· != "*")).mapM selectColumn =
    .ok columns)
  (hAggregates : selection.aggregations.mapM selectAggregate = .ok aggregates)
include hPieces hStar hRead

/-- No column that is read is a star. -/
theorem mem_named_iff {name : String} :
    name ∈ selection.columns.filter (· != "*") ↔
      ∃ piece ∈ pieces, Selection.readItem piece = .ok (.column name) := by
  rw [List.mem_filter, Selection.mem_columns_iff hPieces hStar hRead]
  refine and_iff_left_of_imp ?_
  rintro ⟨piece, -, hPiece⟩
  obtain ⟨hText, hOther⟩ := Selection.tells_of_readItem hPiece
  rw [bne_iff_ne]
  rintro rfl
  exact hOther (.inr hText)

include hColumns hAggregates

/-- The items are the renderings of the pieces. -/
theorem mem_rendered_iff {item : Fragment} :
    item ∈ columns ++ aggregates ↔
      ∃ piece ∈ pieces, RenderedAs piece item := by
  rw [List.mem_append, Result.mem_mapM_iff hColumns,
    Result.mem_mapM_iff hAggregates]
  constructor
  · rintro (⟨name, hName, hItem⟩ | ⟨a, hA, hItem⟩)
    · obtain ⟨piece, hPiece, hColumn⟩ :=
        (mem_named_iff hPieces hStar hRead).1 hName
      exact ⟨piece, hPiece, .column hColumn hItem⟩
    · obtain ⟨piece, hPiece, hAggregate⟩ :=
        (Selection.mem_aggregations_iff hPieces hStar hRead).1 hA
      exact ⟨piece, hPiece, .aggregate hAggregate hItem⟩
  · rintro ⟨piece, hPiece, hItem⟩
    cases hItem with
    | column hColumn hItem =>
        exact .inl ⟨_, (mem_named_iff hPieces hStar hRead).2
          ⟨piece, hPiece, hColumn⟩, hItem⟩
    | aggregate hAggregate hItem =>
        exact .inr ⟨_, (Selection.mem_aggregations_iff hPieces hStar hRead).2
          ⟨piece, hPiece, hAggregate⟩, hItem⟩

/-- A piece that is no star and not blank has an item of its own. -/
theorem exists_rendered {piece : List Char} (hPiece : piece ∈ pieces)
    (hOther : ¬IsVacant piece) :
    ∃ item ∈ columns ++ aggregates, RenderedAs piece item := by
  have hItem : ∃ item, RenderedAs piece item := by
    obtain ⟨read, hIs⟩ :=
      Selection.exists_readItem hPieces hStar hRead hPiece
    cases read with
    | everything => exact absurd (Selection.tells_of_readItem hIs) hOther
    | column name =>
        have hName := (mem_named_iff hPieces hStar hRead).2 ⟨piece, hPiece, hIs⟩
        obtain ⟨item, hItem⟩ :=
          Result.exists_mapM_eq_ok_iff.1 ⟨_, hColumns⟩ name hName
        exact ⟨item, .column hIs hItem⟩
    | aggregate a =>
        have hCall := (Selection.mem_aggregations_iff hPieces hStar hRead).2
          ⟨piece, hPiece, hIs⟩
        obtain ⟨item, hItem⟩ :=
          Result.exists_mapM_eq_ok_iff.1 ⟨_, hAggregates⟩ a hCall
        exact ⟨item, .aggregate hIs hItem⟩
  obtain ⟨item, hItem⟩ := hItem
  exact ⟨item, (mem_rendered_iff hPieces hStar hRead hColumns hAggregates).2
    ⟨piece, hPiece, hItem⟩, hItem⟩

/-- Nothing is rendered if there are only stars and blanks. -/
theorem rendered_eq_nil_iff :
    columns ++ aggregates = [] ↔ ∀ piece ∈ pieces, IsVacant piece := by
  constructor
  · intro hNone piece hPiece
    by_contra hOther
    obtain ⟨item, hItem, -⟩ :=
      exists_rendered hPieces hStar hRead hColumns hAggregates hPiece hOther
    rw [hNone] at hItem
    exact absurd hItem List.not_mem_nil
  · intro hVacant
    refine List.eq_nil_iff_forall_not_mem.2 fun item hItem => ?_
    obtain ⟨piece, hPiece, hRendered⟩ :=
      (mem_rendered_iff hPieces hStar hRead hColumns hAggregates).1 hItem
    exact hRendered.not_isVacant (hVacant piece hPiece)

/-- Rendered items return every column if each of them is named. -/
theorem returnsEach_rendered_iff {table : Table} :
    ReturnsEach table (columns ++ aggregates) ↔
      ∀ name ∈ table.columnNames, ∃ piece ∈ pieces, Names piece name := by
  have hMem : ∀ item, item ∈ columns ++ aggregates ↔
      ∃ piece ∈ pieces, RenderedAs piece item := fun item =>
    mem_rendered_iff hPieces hStar hRead hColumns hAggregates
  have hStarless : [Piece.word .star] ∉ columns ++ aggregates := by
    intro hItem
    obtain ⟨piece, -, hRendered⟩ := (hMem _).1 hItem
    exact hRendered.ne_star rfl
  rw [ReturnsEach, or_iff_right hStarless]
  refine forall₂_congr fun name _ => ?_
  constructor
  · rintro ⟨id, rfl, hItem⟩
    obtain ⟨piece, hPiece, hRendered⟩ := (hMem _).1 hItem
    exact ⟨piece, hPiece, renderedAs_column_iff.1 hRendered⟩
  · rintro ⟨piece, hPiece, hNames⟩
    refine ⟨⟨name, hNames.1⟩, rfl, (hMem _).2 ⟨piece, hPiece, ?_⟩⟩
    exact renderedAs_column_iff.2 hNames

end Rendered

/-- Of a select list with a star among its pieces, the SELECT returns every
column of the table exactly if the other pieces are stars and blanks, or name
every column. The other pieces are rendered in either case. -/
theorem star_returns_each_iff {table : Table} {params : Params} {text : String}
    {pieces : List (List Char)} {selection : Selection} {s : Statement}
    (hPieces : Group.Decomposes text.toList pieces)
    (hStar : ∃ piece ∈ pieces, IsStar piece)
    (hRead : Selection.read text = .ok selection)
    (h : select table (params.selecting selection) = .ok s) :
    ∃ items, s.selected? = some items ∧
      (ReturnsEach table items ↔
        (∀ piece ∈ pieces, IsVacant piece) ∨
          ∀ name ∈ table.columnNames, ∃ piece ∈ pieces, Names piece name) ∧
      ∀ piece ∈ pieces, ¬IsVacant piece →
        ∃ item ∈ items, RenderedAs piece item := by
  obtain ⟨list, hList, hClause⟩ := clause?_select h
  obtain ⟨columns, aggregates, hColumns, hAggregates, hItems⟩ :=
    exists_items_of_selectList hList
  refine ⟨_, by rw [Statement.selected?, hClause]; exact hItems, ?_,
    fun piece hPiece hOther => ?_⟩
  · by_cases hVacant : ∀ piece ∈ pieces, IsVacant piece
    · rw [if_pos ((rendered_eq_nil_iff hPieces hStar hRead hColumns
        hAggregates).2 hVacant)]
      exact iff_of_true (.inl List.mem_cons_self) (.inl hVacant)
    · rw [if_neg (mt (rendered_eq_nil_iff hPieces hStar hRead hColumns
        hAggregates).1 hVacant), or_iff_right hVacant]
      exact returnsEach_rendered_iff hPieces hStar hRead hColumns hAggregates
  · have hSome : columns ++ aggregates ≠ [] := fun hNone =>
      hOther ((rendered_eq_nil_iff hPieces hStar hRead hColumns
        hAggregates).1 hNone piece hPiece)
    rw [if_neg hSome]
    exact exists_rendered hPieces hStar hRead hColumns hAggregates hPiece
      hOther

/-- A star among everything that a select list may hold, each column named. -/
def starAmong : Selection where
  columns := ["id", "data->tags->0", "data"]
  aggregations := [{ function := .count }]

theorem star_returns_each_named :
    Group.Decomposes "id, * ,data->tags->0,count(*), data".toList
      ["id".toList, " * ".toList, "data->tags->0".toList, "count(*)".toList,
        " data".toList] ∧
    (∃ piece ∈ ["id".toList, " * ".toList, "data->tags->0".toList,
      "count(*)".toList, " data".toList], IsStar piece) ∧
    Selection.read "id, * ,data->tags->0,count(*), data" = .ok starAmong ∧
    ∃ s, select items (({} : Params).selecting starAmong) = .ok s ∧
      s.sql = "SELECT \"id\", \"data\"->'tags'->0 AS \"tags\", \"data\", " ++
        "COUNT(*) AS \"count\" FROM \"public\".\"items\"" ∧
      ∃ selected, s.selected? = some selected ∧
        ReturnsEach items selected := by
  have hPieces : Group.Decomposes "id, * ,data->tags->0,count(*), data".toList
      ["id".toList, " * ".toList, "data->tags->0".toList, "count(*)".toList,
        " data".toList] := ⟨by decide, by decide +kernel, by decide +kernel⟩
  have hStar : ∃ piece ∈ ["id".toList, " * ".toList, "data->tags->0".toList,
      "count(*)".toList, " data".toList], IsStar piece := by decide +kernel
  have hRead : Selection.read "id, * ,data->tags->0,count(*), data" =
      .ok starAmong := Result.toOption_eq_some.1 (by decide +kernel)
  have hSelect : (select items
      (({} : Params).selecting starAmong)).toOption.map (·.sql) = some
        ("SELECT \"id\", \"data\"->'tags'->0 AS \"tags\", \"data\", " ++
          "COUNT(*) AS \"count\" FROM \"public\".\"items\"") := by
    decide +kernel
  obtain ⟨s, hs, hText⟩ := Option.map_eq_some_iff.1 hSelect
  have h := Result.toOption_eq_some.1 hs
  obtain ⟨selected, hSelected, hEach, -⟩ :=
    star_returns_each_iff hPieces hStar hRead h
  exact ⟨hPieces, hStar, hRead, s, h, hText, selected, hSelected,
    hEach.2 (.inr (by decide +kernel))⟩

/-- A star next to the name of one column does not return the others. -/
theorem star_lost :
    Group.Decomposes "*,id".toList ["*".toList, "id".toList] ∧
    IsStar "*".toList ∧
    Selection.read "*,id" = .ok { columns := ["id"] } ∧
    ∃ s, select items (({} : Params).selecting { columns := ["id"] }) = .ok s ∧
      s.sql = "SELECT \"id\" FROM \"public\".\"items\"" ∧
      ∃ selected, s.selected? = some selected ∧
        ¬ReturnsEach items selected := by
  have hRead : Selection.read "*,id" = .ok { columns := ["id"] } :=
    Result.toOption_eq_some.1 (by decide +kernel)
  have hSelect : (select items
      (({} : Params).selecting { columns := ["id"] })).toOption.map (fun s =>
        (s.sql, s.selected?)) = some
          ("SELECT \"id\" FROM \"public\".\"items\"",
            some [[.column ⟨"id", by decide⟩]]) := by
    decide +kernel
  obtain ⟨s, hs, hShown⟩ := Option.map_eq_some_iff.1 hSelect
  obtain ⟨hText, hSelected⟩ := Prod.mk.inj hShown
  refine ⟨⟨by decide, by decide +kernel, by decide +kernel⟩,
    by decide +kernel, hRead, s, Result.toOption_eq_some.1 hs, hText, _,
    hSelected, ?_⟩
  rintro (hStar | hEach)
  · exact absurd hStar (by decide)
  · obtain ⟨id, hId, hItem⟩ := hEach "data" (by decide)
    cases List.mem_singleton.1 hItem
    exact absurd hId (by decide)

end Sql
end TableGate
