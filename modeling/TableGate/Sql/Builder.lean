import TableGate.Sql.Write

/-!
# Builders

The text of a statement is assembled piece by piece while its values are
collected. A value gets its placeholder when the builder comes to it: it joins
the values collected so far, and the placeholder is numbered by how many there
are then. So a number depends on when a value is come to, and a text that were
put together in another order than its values are collected would be wrong.

The parts of a statement without values, names above all, are those of the
statement as a list of pieces.

## Main definitions

* `Builder.placeholder`: collect a value and hand out its placeholder.
* `Builder.select` and the like: what is built for a request, a text and the
  values its placeholders stand for.
-/

namespace TableGate.Sql

/-- A text with placeholders, and the values they stand for. -/
structure Rendered where
  sql : String
  args : List Value
deriving DecidableEq

/-- The text with its values bound by name. -/
def Rendered.prepare (r : Rendered) : PreparedStatement :=
  prepareText r.sql r.args

/-- The text of pieces without values. -/
def plainText (fragment : Fragment) : String :=
  fragment.foldr (fun piece text => piece.text ++ text) ""

/-- Texts with a word between neighbours. -/
def joinTexts (between : Word) : List String → String
  | [] => ""
  | [text] => text
  | text :: rest => text ++ between.text ++ joinTexts between rest

/-- Computations that may fail and collect values on the way. -/
abbrev Builder (α : Type) := StateT (List Value) Result α

namespace Builder

variable {α : Type}

/-- Collect a value and hand out its placeholder. -/
def placeholder (value : Value) : Builder String := do
  modify fun args => args ++ [value]
  return "$" ++ Text.natText (← get).length

/-- A plain result as a step that collects nothing. -/
def lift (result : Result α) : Builder α := StateT.lift result

/-- The text of a fragment without values. -/
def plain (fragment : Result Fragment) : Builder String := do
  return plainText (← lift fragment)

/-- What is built when no value has been collected yet. -/
def build (text : Builder String) : Result Rendered := do
  let (sql, args) ← text.run []
  return ⟨sql, args⟩

/-! ## The WHERE clause -/

/-- A column that is one of a list of values. -/
def membership (column : String) (items : List Value) : Builder String := do
  if items.isEmpty then return Word.false.text
  else
    let places ← items.mapM placeholder
    return column ++ Word.openList.text ++ joinTexts .comma places ++
      Word.closeParen.text

/-- A comparison with one value. -/
def comparison (f : Filter) (operator : Operator) (column : String) :
    Builder String :=
  match f.value with
  | .null =>
      if operator = .eq then return column ++ Word.isNull.text
      else if operator = .neq then return column ++ Word.isNotNull.text
      else lift (refuse (.nullRefused operator f.column))
  | .sequence _ => lift (refuse (.listRefused operator f.column))
  | value => do
      let place ← placeholder value.toValue
      return column ++ (Word.compare operator).text ++ place

/-- A filter. -/
def filter (f : Filter) : Builder String :=
  match f.operator with
  | none => lift (refuse (.unknownOperator f.column))
  | some operator => do
      let path ← lift (ColumnPath.ofColumn f.column)
      let column ← plain (comparedColumn path operator)
      match operator with
      | .is =>
          let word ← lift (isWord f.value)
          return column ++ word.text
      | .in =>
          match f.value with
          | .null => lift (refuse (.listRequired .in f.column))
          | .sequence items => membership column (items.map .scalar)
          | value => membership column [value.toValue]
      | operator => comparison f operator column

/-- A condition: a filter, or the members of a group between parentheses. -/
def condition : Condition → Builder String
  | .single f => filter f
  | .anyOf members => do
      let parts ← members.mapM filter
      return Word.openParen.text ++ joinTexts .or parts ++
        Word.closeParen.text

/-- The WHERE clause of a list of filters; without filters there is none. -/
def whereClause (filters : List Filter) : Builder String := do
  match ← (Filter.conditions filters).mapM condition with
  | [] => return ""
  | parts => return Word.whereAll.text ++ joinTexts .and parts

/-! ## Statements that read -/

/-- A page bound, if there is one. -/
def boundClause (word : Word) (bound : Option Int) : Builder String :=
  match bound with
  | none => return ""
  | some n => do
      let place ← placeholder (.int n)
      return word.text ++ place

/-- The SELECT of a list request. -/
def select (table : Table) (params : Params) : Result Rendered := build do
  let target ← lift (tablePiece table)
  let columns ← plain (selectList params)
  let filters ← lift (keysetFilters params)
  let wherePart ← whereClause filters
  let groupPart ← plain (groupClause params.groupBy)
  let orderPart ← plain (orderClause (keysetOrder params))
  let limitPart ← boundClause .limit params.limit
  let offsetPart ← boundClause .offset params.offset
  return Word.select.text ++ columns ++ Word.fromTable.text ++ target.text ++
    wherePart ++ groupPart ++ orderPart ++ limitPart ++ offsetPart

/-- The COUNT of a list request; the cursor does not narrow it. -/
def count (table : Table) (params : Params) : Result Rendered := build do
  let target ← lift (tablePiece table)
  let wherePart ← whereClause params.filters
  if params.groupBy.isEmpty then
    return Word.selectCount.text ++ Word.fromTable.text ++ target.text ++
      wherePart
  else
    let groupPart ← plain (groupClause params.groupBy)
    return Word.selectCount.text ++ Word.fromTable.text ++
      Word.openParen.text ++ Word.selectOne.text ++ Word.fromTable.text ++
      target.text ++ wherePart ++ groupPart ++ Word.closeParen.text ++
      Word.asName.text ++ groupedLabel.quoted

/-- The planner's estimate for a list request without page bounds and
cursor. -/
def explain (table : Table) (params : Params) : Result Rendered := do
  let whole ← select table
    { params with limit := none, offset := none, cursor := none }
  return ⟨Word.explain.text ++ whole.sql, whole.args⟩

/-- The SELECT of the record with a key, narrowed by the filters of the
request. -/
def selectByKey (table : Table) (key : List Value) (params : Params) :
    Result Rendered := build do
  let target ← lift (tablePiece table)
  let columns ← plain (selectList params)
  let filters ← lift (keyFilters table key)
  let wherePart ← whereClause (filters ++ params.filters)
  return Word.select.text ++ columns ++ Word.fromTable.text ++ target.text ++
    wherePart

/-! ## Statements that write -/

/-- The row of placeholders of a record. -/
def recordRow (table : Table) (columns : List String) (record : Fields) :
    Builder String := do
  let places ← columns.mapM fun name => do
    let value ←
      lift (boundValue table name ((record.get? name).getD .null))
    placeholder value
  return Word.openParen.text ++ joinTexts .comma places ++
    Word.closeParen.text

/-- The INSERT of a batch of records. -/
def insertBatch (table : Table) (records : List Value)
    (upsert : Option Upsert) : Result Rendered := build do
  let target ← lift (tablePiece table)
  if records.isEmpty then lift (refuse .emptyBatch)
  let records ← lift (recordFields records)
  let columns ← lift (batchColumns table records)
  let rows ← records.mapM (recordRow table columns)
  let names ← plain (columnList columns)
  let conflict ← plain (conflictPart table upsert columns)
  let result ← plain (returning table)
  return Word.insertInto.text ++ target.text ++ Word.openColumns.text ++
    names ++ Word.values.text ++ joinTexts .comma rows ++ conflict ++ result

/-- The INSERT of one record; an empty one takes the defaults of all
columns. -/
def insert (table : Table) (record : Fields) (upsert : Option Upsert) :
    Result Rendered :=
  if record.isEmpty then build do
    let target ← lift (tablePiece table)
    let conflict ← plain (conflictPart table upsert [])
    let result ← plain (returning table)
    return Word.insertInto.text ++ target.text ++ Word.defaultValues.text ++
      conflict ++ result
  else insertBatch table [.object record] upsert

/-- The assignment of a value to a column. -/
def assignment (table : Table) (field : String × Value) : Builder String := do
  let name ← lift (column field.1)
  let value ← lift (boundValue table field.1 field.2)
  let place ← placeholder value
  return name.text ++ Word.assign.text ++ place

/-- The UPDATE of the rows that meet the filters. -/
def updateWhere (table : Table) (target : Piece) (values : Fields)
    (filters : List Filter) : Builder String := do
  if values.isEmpty then lift (refuse .noFields)
  lift (values.names.forM (Params.checkColumn table))
  let assignments ← values.mapM (assignment table)
  let wherePart ← whereClause filters
  let result ← plain (returning table)
  return Word.update.text ++ target.text ++ Word.set.text ++
    joinTexts .comma assignments ++ wherePart ++ result

/-- The UPDATE of the rows a request selects. -/
def update (table : Table) (values : Fields) (params : Params) :
    Result Rendered := build do
  let target ← lift (tablePiece table)
  if params.filters.isEmpty then lift (refuse .updateWithoutFilter)
  updateWhere table target values params.filters

/-- The UPDATE of the record with a key. -/
def updateByKey (table : Table) (key : List Value) (values : Fields) :
    Result Rendered := build do
  let target ← lift (tablePiece table)
  let filters ← lift (keyFilters table key)
  updateWhere table target values filters

/-- The DELETE of the rows that meet the filters. -/
def deleteWhere (table : Table) (target : Piece) (filters : List Filter) :
    Builder String := do
  let wherePart ← whereClause filters
  let result ← plain (returning table)
  return Word.deleteFrom.text ++ target.text ++ wherePart ++ result

/-- The DELETE of the rows a request selects. -/
def delete (table : Table) (params : Params) : Result Rendered := build do
  let target ← lift (tablePiece table)
  if params.filters.isEmpty then lift (refuse .deleteWithoutFilter)
  deleteWhere table target params.filters

/-- The DELETE of the record with a key. -/
def deleteByKey (table : Table) (key : List Value) : Result Rendered :=
  build do
    let target ← lift (tablePiece table)
    let filters ← lift (keyFilters table key)
    deleteWhere table target filters

end Builder
end TableGate.Sql
