import TableGate.Proofs.Identifier
import TableGate.Proofs.Sql.Query

/-!
# The clauses of a list request

Every SELECT of a list request is taken apart into its clauses, also one with
aggregates, groups or an offset, which asks for no rows of the table one by
one. What stands in the clauses is what the request says, item by item: its
select list, its filters with the comparison that a cursor adds, and its
order.

The columns of the result are read off the select list. An item that is a
column shows the column of the table; any other ends in a name of its own.

## Main results

* `resultColumns?_selectList`: the columns of the result of a list request.
* `clausesOf_select`, `selectClauses`: the clauses of its SELECT, and what
  stands in them.
-/

namespace TableGate.Sql

open TableGate.Filter (conjuncts)
open Result (bind_eq_ok pure_eq_ok)

/-! ## Items of a select list -/

/-- A column of a result: its name, and the column of the table that it shows
if it shows one as it is. -/
structure ResultColumn where
  name : String
  shows : Option String
deriving DecidableEq

/-- The column that an item of a select list makes. -/
def ResultColumn.ofFragment? (item : Fragment) : Option ResultColumn :=
  match item.getLast?, item with
  | some (.label name), _ => some ⟨name.text, none⟩
  | some (.column name), [_] => some ⟨name.text, some name.text⟩
  | _, _ => none

/-- An item is read to its end by a cut at commas, opens no clause and makes a
column of the result. -/
structure IsItem (item : Fragment) (c : ResultColumn) : Prop where
  passes : Passes .comma 0 item 0
  quiet : Quiet item
  makes : ResultColumn.ofFragment? item = some c

/-- The column that a path makes. -/
def ResultColumn.ofPath (path : ColumnPath) : ResultColumn where
  name := path.outputName
  shows := if path.isPath then none else some path.base

/-- The column that an aggregate makes. -/
def ResultColumn.ofAggregation (a : Aggregation) : ResultColumn where
  name := a.outputName
  shows := none

/-- A selected column makes the column of its path. -/
theorem isItem_selectColumn {item : String} {part : Fragment}
    (h : selectColumn item = .ok part) :
    ∃ path, ColumnPath.ofColumn item = .ok path ∧
      IsItem part (.ofPath path) := by
  have hRead := (ofFragment?_selectColumn h).1
  obtain ⟨path, hPath, h⟩ := bind_eq_ok.1 h
  refine ⟨path, hPath, hRead.1, hRead.2, ?_⟩
  split at h
  · next hSteps =>
    obtain ⟨expression, hExpression, h⟩ := bind_eq_ok.1 h
    obtain ⟨label, hLabel, h⟩ := bind_eq_ok.1 h
    have hLast : (expression ++ [Piece.word .asName, .label label]).getLast? =
        some (.label label) := by simp
    rw [← pure_eq_ok.1 h, ResultColumn.ofPath, if_pos hSteps,
      ← identifier_eq_ok hLabel]
    unfold ResultColumn.ofFragment?
    rw [hLast]
  · obtain ⟨piece, hColumn, h⟩ := bind_eq_ok.1 h
    obtain ⟨name, hName, hColumn⟩ := bind_eq_ok.1 hColumn
    rw [← identifier_eq_ok hName, name.ofColumn_text] at hPath
    rw [← pure_eq_ok.1 h, ← pure_eq_ok.1 hColumn, ← Except.ok.inj hPath]
    rfl

/-- An aggregate makes a column of its own. -/
theorem isItem_selectAggregate {a : Aggregation} {part : Fragment}
    (h : selectAggregate a = .ok part) : IsItem part (.ofAggregation a) := by
  have hCall : ∀ {argument : Piece} {label : Identifier},
      argument.isFlat = true → argument ≠ .word .comma →
      argument.opensClause = false → label.text = a.outputName →
      IsItem [.word (.function a.function), argument, .word .closeParen,
        .word .asName, .label label] (.ofAggregation a) := by
    intro argument label hFlat hOther hClosed hLabel
    have hInner : Passes .comma 1 [argument] 1 :=
      .piece (fun hSame => hOther hSame.1) (argument.level?_of_isFlat hFlat 1)
    have hOpen : Passes .comma 0 [.word (.function a.function)] 1 :=
      .piece (by simp) rfl
    have hClose : Passes .comma 1 [.word .closeParen] 0 :=
      .piece (by simp) rfl
    have hNamed : Passes .comma 0 [.word .asName, .label label] 0 := by
      refine .of_other fun piece hPiece => ?_
      simp only [List.mem_cons, List.not_mem_nil, or_false] at hPiece
      rcases hPiece with rfl | rfl
      · exact ⟨rfl, by decide⟩
      · exact ⟨rfl, by simp⟩
    refine ⟨hOpen.append (hInner.append (hClose.append hNamed)), ?_, ?_⟩
    · exact .cons rfl (.cons hClosed (.cons rfl (.cons rfl (.one rfl))))
    · rw [ResultColumn.ofAggregation, ← hLabel]
      rfl
  unfold selectAggregate at h
  split at h
  · obtain ⟨argument, hArgument, h⟩ := bind_eq_ok.1 h
    obtain ⟨label, hLabel, h⟩ := bind_eq_ok.1 h
    rw [← pure_eq_ok.1 h, ← Except.ok.inj hArgument]
    exact hCall rfl (by decide) rfl (identifier_eq_ok hLabel)
  · obtain ⟨argument, hArgument, h⟩ := bind_eq_ok.1 h
    obtain ⟨label, hLabel, h⟩ := bind_eq_ok.1 h
    obtain ⟨name, rfl⟩ := column_eq_ok hArgument
    rw [← pure_eq_ok.1 h]
    exact hCall rfl (by simp) rfl (identifier_eq_ok hLabel)

/-- What a path makes of an item of a request. -/
def Makes (item : String) (c : ResultColumn) : Prop :=
  ∃ path, ColumnPath.ofColumn item = .ok path ∧ c = .ofPath path

/-- The columns of a result are those that are selected, then the aggregates;
without either they are the columns of the table. -/
inductive ColumnsOf (table : Table) (params : Params) :
    List ResultColumn → Prop
  | all (hColumns : params.select.filter (· != "*") = [])
      (hAggregates : params.aggregations = []) :
      ColumnsOf table params
        (table.columnNames.map fun name => ⟨name, some name⟩)
  | items {columns : List ResultColumn}
      (hSome : params.select.filter (· != "*") ≠ [] ∨ params.aggregations ≠ [])
      (h : List.Forall₂ Makes (params.select.filter (· != "*")) columns) :
      ColumnsOf table params
        (columns ++ params.aggregations.map ResultColumn.ofAggregation)

/-- The columns that a select list makes. -/
def resultColumns? (table : Table) (list : Fragment) :
    Option (List ResultColumn) :=
  if list = [.word .star] then
    some (table.columnNames.map fun name => ⟨name, some name⟩)
  else do (← splitAround? .comma 0 list).mapM ResultColumn.ofFragment?

/-- Items make their columns one by one. -/
theorem mapM_isItem {items : List Fragment} {columns : List ResultColumn}
    (h : List.Forall₂ IsItem items columns) :
    items.mapM ResultColumn.ofFragment? = some columns := by
  induction h with
  | nil => rfl
  | cons hFirst _ ih =>
      rw [List.mapM_cons, hFirst.makes, ih]
      rfl

/-- Items are found again in the list that they are written in. -/
theorem splitAround?_isItem {items : List Fragment}
    {columns : List ResultColumn} (h : List.Forall₂ IsItem items columns)
    (hSome : items ≠ []) :
    splitAround? .comma 0 (commaList items) = some items := by
  obtain ⟨first, others, rfl⟩ := List.exists_cons_of_ne_nil hSome
  refine splitAround?_joinFragments fun part hPart => ?_
  obtain ⟨c, -, hIs⟩ := Result.exists_of_mem_forall₂ h.flip hPart
  exact hIs.passes

theorem isItem_selected {params : Params} {columns aggregates : List Fragment}
    (hColumns : (params.select.filter (· != "*")).mapM selectColumn =
      .ok columns)
    (hAggregates : params.aggregations.mapM selectAggregate =
      .ok aggregates) :
    ∃ made, List.Forall₂ Makes (params.select.filter (· != "*")) made ∧
      List.Forall₂ IsItem (columns ++ aggregates)
        (made ++ params.aggregations.map ResultColumn.ofAggregation) := by
  have hCalls : List.Forall₂ IsItem aggregates
      (params.aggregations.map ResultColumn.ofAggregation) := by
    rw [List.forall₂_map_right_iff]
    exact ((Result.mapM_eq_ok.1 hAggregates).imp
      fun _ _ => isItem_selectAggregate).flip
  have hItems := Result.mapM_eq_ok.1 hColumns
  generalize params.select.filter (· != "*") = select at hItems ⊢
  clear hColumns
  induction hItems with
  | nil => exact ⟨[], .nil, hCalls⟩
  | cons hFirst _ ih =>
      obtain ⟨made, hMade, hAll⟩ := ih
      obtain ⟨path, hPath, hItem⟩ := isItem_selectColumn hFirst
      exact ⟨.ofPath path :: made, .cons ⟨path, hPath, rfl⟩ hMade,
        .cons hItem hAll⟩

/-- The select list of a request makes the columns that the request names. -/
theorem resultColumns?_selectList (table : Table) {params : Params}
    {list : Fragment} (h : selectList params = .ok list) :
    Quiet list ∧ ∃ columns, resultColumns? table list = some columns ∧
      ColumnsOf table params columns := by
  obtain ⟨columns, hColumns, h⟩ := bind_eq_ok.1 h
  obtain ⟨aggregates, hAggregates, h⟩ := bind_eq_ok.1 h
  obtain ⟨made, hMade, hItems⟩ := isItem_selected hColumns hAggregates
  split at h
  · next hNone =>
      rw [← pure_eq_ok.1 h]
      rw [hNone, List.forall₂_nil_left_iff, List.append_eq_nil_iff] at hItems
      obtain ⟨rfl, hNoCalls⟩ := hItems
      exact ⟨.one rfl, _, if_pos rfl, .all (List.forall₂_nil_right_iff.1 hMade)
        (List.map_eq_nil_iff.1 hNoCalls)⟩
  · next hSome =>
      obtain ⟨first, others, hParts⟩ := List.exists_cons_of_ne_nil hSome
      have hEach : ∀ part ∈ first :: others, ∃ c, IsItem part c := by
        rw [← hParts]
        intro part hPart
        obtain ⟨c, -, hIs⟩ := Result.exists_of_mem_forall₂ hItems.flip hPart
        exact ⟨c, hIs⟩
      have hSplit : splitAround? .comma 0 (commaList (first :: others)) =
          some (first :: others) := by
        rw [← hParts]
        exact splitAround?_isItem hItems hSome
      -- A star alone would be the only item, and it makes no column.
      have hStar : commaList (first :: others) ≠ [.word .star] := by
        intro hStar
        rw [hStar] at hSplit
        have hOnly : [[Piece.word .star]] = first :: others :=
          Option.some.inj hSplit
        obtain ⟨c, hIs⟩ := hEach first List.mem_cons_self
        rw [← (List.cons.inj hOnly).1] at hIs
        exact absurd hIs.makes (by simp [ResultColumn.ofFragment?])
      have hNamed : params.select.filter (· != "*") ≠ [] ∨
          params.aggregations ≠ [] := by
        by_contra hNone
        push Not at hNone
        obtain ⟨hNoColumns, hNoCalls⟩ := hNone
        rw [hNoColumns, List.forall₂_nil_left_iff] at hMade
        rw [hMade, hNoCalls, List.map_nil, List.append_nil,
          List.forall₂_nil_right_iff] at hItems
        exact hSome hItems
      rw [← pure_eq_ok.1 h, hParts]
      rw [hParts] at hItems
      refine ⟨.commaList fun part hPart => ?_, _, ?_, .items hNamed hMade⟩
      · obtain ⟨c, hIs⟩ := hEach part hPart
        exact hIs.quiet
      · rw [resultColumns?, if_neg hStar, hSplit]
        exact mapM_isItem hItems

/-! ## The clauses of a SELECT -/

/-- The clauses of a page bound: one if there is a bound. -/
def boundClauses (w : Word) (bound : Option Int) : List (Word × Fragment) :=
  bound.toList.map fun n => (w, [.bind (.int n)])

theorem madeOf_boundClause {w : Word} (h : w.opensClause = true)
    (bound : Option Int) :
    MadeOf (boundClause w bound) (boundClauses w bound) := by
  cases bound with
  | none => exact .nil
  | some n => exact .one h (.one rfl)

/-- The clauses of a list of groups: one if there are groups. -/
def groupClauses : Fragment → List (Word × Fragment)
  | .word .groupBy :: columns => [(.groupBy, columns)]
  | _ => []

theorem madeOf_groupClause {names : List String} {part : Fragment}
    (h : groupClause names = .ok part) : MadeOf part (groupClauses part) := by
  unfold groupClause at h
  split at h
  · rw [← pure_eq_ok.1 h]
    exact .nil
  · obtain ⟨columns, hColumns, h⟩ := bind_eq_ok.1 h
    rw [← pure_eq_ok.1 h]
    exact .one rfl (quiet_columnList hColumns)

theorem groupClauses_eq (part : Fragment) :
    ∀ clause ∈ groupClauses part, clause.1 = .groupBy := by
  unfold groupClauses
  split
  · exact fun clause hClause => by rw [List.mem_singleton.1 hClause]
  · exact fun clause hClause => absurd hClause List.not_mem_nil

theorem boundClauses_eq (w : Word) (bound : Option Int) :
    ∀ clause ∈ boundClauses w bound, clause.1 = w := by
  intro clause hClause
  obtain ⟨n, -, rfl⟩ := List.mem_map.1 hClause
  rfl

/-- What stands in the clauses of the SELECT of a list request. -/
structure SelectClauses (table : Table) (params : Params) (s : Statement) :
    Prop where
  columns : ∃ columns, (s.clause? .select).bind (resultColumns? table) =
    some columns ∧ ColumnsOf table params columns
  conditions : ∃ filters, keysetFilters params = .ok filters ∧
    s.conjuncts? = some ((conjuncts filters).map fun c =>
      c.places.map (renderedAt filters)) ∧
    ∀ (i : Nat) (f : Filter), filters[i]? = some f →
      filterFragment f = .ok (renderedAt filters i)
  order : ∃ keys, order? (s.clause? .orderBy) = some keys ∧
    List.Forall₂ SortKeyOf (keysetOrder params) keys

/-- The clauses of a SELECT are those that its parts are made of. -/
theorem clausesOf_select {table : Table} {params : Params}
    {filters : List Filter} {target : Piece}
    {list wherePart groupPart orderPart : Fragment}
    (hTarget : tablePiece table = .ok target)
    (hList : selectList params = .ok list)
    (hWhere : whereClause filters = .ok wherePart)
    (hGroup : groupClause params.groupBy = .ok groupPart)
    (hOrder : orderClause (keysetOrder params) = .ok orderPart) :
    clausesOf (.word .select :: list ++ [.word .fromTable, target] ++
        wherePart ++ groupPart ++ orderPart ++
        boundClause .limit params.limit ++
        boundClause .offset params.offset) =
      (.select, list) :: (.fromTable, [target]) ::
        (whereClauses wherePart ++ groupClauses groupPart ++
          orderClauses orderPart ++ boundClauses .limit params.limit ++
            boundClauses .offset params.offset) := by
  have hQuiet := (resultColumns?_selectList table hList).1
  have hLead := (MadeOf.one (w := .select) rfl hQuiet).append
    (.one (w := .fromTable) rfl (quiet_tablePiece hTarget))
  have hParts := (((((hLead.append (madeOf_whereClause hWhere)).append
    (madeOf_groupClause hGroup)).append (order?_orderClause hOrder).1).append
      (madeOf_boundClause (w := .limit) rfl params.limit)).append
        (madeOf_boundClause (w := .offset) rfl params.offset))
  have hMade := hParts.clausesOf_eq
  simpa using hMade

/-- What stands behind the SELECT is the select list. -/
theorem clause?_select {table : Table} {params : Params} {s : Statement}
    (h : select table params = .ok s) :
    ∃ list, selectList params = .ok list ∧ s.clause? .select = some list := by
  obtain ⟨target, hTarget, h⟩ := bind_eq_ok.1 h
  obtain ⟨list, hList, h⟩ := bind_eq_ok.1 h
  obtain ⟨filters, hFilters, h⟩ := bind_eq_ok.1 h
  obtain ⟨wherePart, hWhere, h⟩ := bind_eq_ok.1 h
  obtain ⟨groupPart, hGroup, h⟩ := bind_eq_ok.1 h
  obtain ⟨orderPart, hOrder, h⟩ := bind_eq_ok.1 h
  refine ⟨list, hList, ?_⟩
  rw [Statement.clause?, ← pure_eq_ok.1 h,
    clausesOf_select hTarget hList hWhere hGroup hOrder]
  rfl

/-- The SELECT of a list request is taken apart into what the request says. -/
theorem selectClauses {table : Table} {params : Params} {s : Statement}
    (h : select table params = .ok s) : SelectClauses table params s := by
  obtain ⟨target, hTarget, h⟩ := bind_eq_ok.1 h
  obtain ⟨list, hList, h⟩ := bind_eq_ok.1 h
  obtain ⟨filters, hFilters, h⟩ := bind_eq_ok.1 h
  obtain ⟨wherePart, hWhere, h⟩ := bind_eq_ok.1 h
  obtain ⟨groupPart, hGroup, h⟩ := bind_eq_ok.1 h
  obtain ⟨orderPart, hOrder, h⟩ := bind_eq_ok.1 h
  obtain ⟨-, columns, hColumns, hColumnsOf⟩ :=
    resultColumns?_selectList table hList
  obtain ⟨-, keys, hKeys, hKeysOf⟩ := order?_orderClause hOrder
  have hClauses := clausesOf_select hTarget hList hWhere hGroup hOrder
  obtain rfl := pure_eq_ok.1 h
  have hWhereOnly := whereClauses_eq wherePart
  have hGroupOnly := groupClauses_eq groupPart
  have hOrderOnly := orderClauses_eq orderPart
  have hLimitOnly := boundClauses_eq .limit params.limit
  have hOffsetOnly := boundClauses_eq .offset params.offset
  refine ⟨⟨columns, ?_, hColumnsOf⟩, ⟨filters, hFilters, ?_,
    (whereClause_eq_clauseOf hWhere).2⟩, ⟨keys, ?_, hKeysOf⟩⟩
  · rw [Statement.clause?, hClauses]
    exact hColumns
  · refine conjuncts?_of_whereClause hWhere ?_
    rw [Statement.clause?, hClauses]
    show ((((whereClauses wherePart ++ groupClauses groupPart) ++
      orderClauses orderPart) ++ boundClauses .limit params.limit) ++
        boundClauses .offset params.offset).lookup .whereAll = _
    simp [List.lookup_append,
      lookup_eq_none hGroupOnly (w := .whereAll) (by decide),
      lookup_eq_none hOrderOnly (w := .whereAll) (by decide),
      lookup_eq_none hLimitOnly (w := .whereAll) (by decide),
      lookup_eq_none hOffsetOnly (w := .whereAll) (by decide)]
  · rw [← hKeys, Statement.clause?, hClauses]
    show order? (((((whereClauses wherePart ++ groupClauses groupPart) ++
      orderClauses orderPart) ++ boundClauses .limit params.limit) ++
        boundClauses .offset params.offset).lookup .orderBy) = _
    simp [List.lookup_append,
      lookup_eq_none hWhereOnly (w := .orderBy) (by decide),
      lookup_eq_none hGroupOnly (w := .orderBy) (by decide),
      lookup_eq_none hLimitOnly (w := .orderBy) (by decide),
      lookup_eq_none hOffsetOnly (w := .orderBy) (by decide)]

end TableGate.Sql
