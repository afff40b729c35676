import TableGate.Sql.Where
import TableGate.Table

/-!
# Statements that read

A list request becomes a SELECT with the filters, the order and the page
bounds of the request. Keyset pagination adds a comparison with the value of
the cursor, and the keyset column at the end of the order unless the request
orders by it already. The total comes from a COUNT over the same filters, or
from the planner's estimate for the SELECT without page bounds and cursor.
-/

namespace TableGate.Sql

/-- The quoted table of a statement. -/
def tablePiece (table : Table) : Result Piece := do
  return .table (← identifier table.schema) (← identifier table.name)

/-- One column of a select list. A plain column is rendered as it is written;
a path gets the name of its last field. -/
def selectColumn (name : String) : Result Fragment := do
  let path ← ColumnPath.ofColumn name
  if path.isPath then
    let fragment ← pathFragment path
    let label ← identifier path.outputName
    return fragment ++ [.word .asName, .label label]
  else return [← column name]

/-- One aggregate of a select list. -/
def selectAggregate (a : Aggregation) : Result Fragment := do
  let argument ←
    match a.column with
    | none => .ok (.word .star)
    | some name => column name
  let label ← identifier a.outputName
  return [.word (.function a.function), argument, .word .closeParen,
    .word .asName, .label label]

/-- The select list: columns, then aggregates, or a star for neither. -/
def selectList (params : Params) : Result Fragment := do
  let columns ← (params.select.filter (· != "*")).mapM selectColumn
  let aggregates ← params.aggregations.mapM selectAggregate
  match columns ++ aggregates with
  | [] => return [.word .star]
  | parts => return commaList parts

/-- The GROUP BY clause; without columns there is none. -/
def groupClause (columns : List String) : Result Fragment := do
  if columns.isEmpty then return []
  else return .word .groupBy :: (← columnList columns)

/-- The words for a nulls ordering. -/
def nullsWords (token : String) : Result Fragment :=
  if token = "" then .ok []
  else if token = "first" then .ok [.word .nullsFirst]
  else if token = "last" then .ok [.word .nullsLast]
  else refuse (.nullsOrdering token)

/-- One entry of an ORDER BY clause. -/
def orderEntry (entry : OrderBy) : Result Fragment := do
  let nulls ← nullsWords entry.nulls
  let path ← ColumnPath.ofColumn entry.column
  let column ← pathFragment path
  let direction := if entry.desc then Word.desc else Word.asc
  return column ++ .word direction :: nulls

/-- The ORDER BY clause; without entries there is none. -/
def orderClause (order : List OrderBy) : Result Fragment := do
  if order.isEmpty then return []
  else return .word .orderBy :: commaList (← order.mapM orderEntry)

/-- The filters of a request with the comparison a cursor adds. -/
def keysetFilters (params : Params) : Result (List Filter) := do
  match params.cursor with
  | none => return params.filters
  | some cursor =>
      let value ← FilterValue.ofValue cursor.value
      return params.filters ++ [{
        column := params.keysetColumn.getD cursor.column
        operator := some (if params.keysetDesc then .lt else .gt)
        value }]

/-- The order of a request with the keyset column at its end, unless it is
there already. -/
def keysetOrder (params : Params) : List OrderBy :=
  match params.keysetColumn with
  | none => params.order
  | some column =>
      if params.order.any fun entry => entry.column == column then params.order
      else params.order ++ [{ column, desc := params.keysetDesc }]

/-- A page bound, if there is one. -/
def boundClause (word : Word) (bound : Option Int) : Fragment :=
  match bound with
  | none => []
  | some n => [.word word, .bind (.int n)]

/-- The SELECT of a list request. -/
def select (table : Table) (params : Params) : Result Statement := do
  let target ← tablePiece table
  let columns ← selectList params
  let wherePart ← whereClause (← keysetFilters params)
  let groupPart ← groupClause params.groupBy
  let orderPart ← orderClause (keysetOrder params)
  return ⟨.word .select :: columns ++ [.word .fromTable, target] ++
    wherePart ++ groupPart ++ orderPart ++ boundClause .limit params.limit ++
    boundClause .offset params.offset⟩

/-- The name of the subquery that is counted when rows are grouped. -/
def groupedLabel : Identifier := ⟨"grouped", by decide⟩

/-- The COUNT of a list request; the cursor does not narrow it. -/
def count (table : Table) (params : Params) : Result Statement := do
  let target ← tablePiece table
  let wherePart ← whereClause params.filters
  if params.groupBy.isEmpty then
    return ⟨[.word .selectCount, .word .fromTable, target] ++ wherePart⟩
  else
    let groupPart ← groupClause params.groupBy
    return ⟨[.word .selectCount, .word .fromTable, .word .openParen,
      .word .selectOne, .word .fromTable, target] ++ wherePart ++ groupPart ++
      [.word .closeParen, .word .asName, .label groupedLabel]⟩

/-- The planner's estimate for a list request without page bounds and
cursor. -/
def explain (table : Table) (params : Params) : Result Statement := do
  let whole ← select table
    { params with limit := none, offset := none, cursor := none }
  return ⟨.word .explain :: whole.pieces⟩

/-- The comparisons of the primary key columns with the parts of a key. -/
def keyFilters (table : Table) (key : List Value) : Result (List Filter) := do
  if table.primaryKey.isEmpty then refuse (.noPrimaryKey table.key)
  else if key.length ≠ table.primaryKey.length then
    refuse (.primaryKeyCount table.primaryKey.length key.length)
  else
    (table.primaryKey.zip key).mapM fun part => do
      let value ← FilterValue.ofValue part.2
      return { column := part.1, operator := some .eq, value }

/-- The SELECT of the record with a key, narrowed by the filters of the
request. -/
def selectByKey (table : Table) (key : List Value) (params : Params) :
    Result Statement := do
  let target ← tablePiece table
  let columns ← selectList params
  let filters ← keyFilters table key
  let wherePart ← whereClause (filters ++ params.filters)
  return ⟨.word .select :: columns ++ [.word .fromTable, target] ++ wherePart⟩

end TableGate.Sql
