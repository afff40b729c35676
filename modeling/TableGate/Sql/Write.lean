import TableGate.Sql.Read

/-!
# Statements that write

An INSERT takes its columns from the first record; later records may leave
columns out, which are bound as null, but may not add any. With an upsert it
gets an ON CONFLICT clause whose target is the columns the request names, or
else the primary key. An UPDATE or DELETE needs a filter, or the key of one
record; neither is ever made without a condition. All of them return the
columns of the rows they touch.

A value that is an object is bound as a JSON document, and so is a list in a
column that holds documents.
-/

namespace TableGate

/-- What happens to records that exist already. -/
structure Upsert where
  onConflict : List String := []
  ignoreDuplicates : Bool := false
  defaultToNull : Bool := false
deriving DecidableEq, Repr

/-- Whether a column is in a conflict target; an absent target holds none. -/
def inConflictTarget (column : String) (target : Option (List String)) : Bool :=
  (target.getD []).contains column

/-- The columns of a conflict target: those that are named, else the primary
key. -/
def Table.conflictTarget (table : Table) (onConflict : List String) :
    Result (List String) :=
  if onConflict.isEmpty then
    if table.primaryKey.isEmpty then refuse (.noConflictTarget table.key)
    else .ok table.primaryKey
  else
    match onConflict.find? fun column => !table.hasColumn column with
    | some column => refuse (.conflictColumn column)
    | none => .ok onConflict

namespace Sql

/-! ## Values -/

/-- The document of a value that is bound as text. -/
def document (value : Value) : Result Value := do
  return .text (← encodeDocument .spaced value)

/-- The value that is bound for a column. -/
def boundValue (table : Table) (column : String) (value : Value) :
    Result Value :=
  match value with
  | .object _ => document value
  | .list _ => if table.isJsonColumn column then document value else .ok value
  | value => .ok value

/-- The RETURNING clause. -/
def returning (table : Table) : Result Fragment := do
  if table.columns.isEmpty then return [.word .returning, .word .star]
  else return .word .returning :: (← columnList table.columnNames)

/-! ## Insert -/

/-- Set a column to the value of the record that was not inserted. -/
def assignExcluded (name : String) : Result Fragment := do
  let quoted ← column name
  return [quoted, .word .excluded, quoted]

/-- Set a column to null. -/
def assignNull (name : String) : Result Fragment := do
  return [← column name, .word .assignNull]

/-- What an upsert assigns, besides the columns of the conflict target. -/
def conflictAssignments (table : Table) (upsert : Upsert)
    (target recordColumns : List String) : Result (List Fragment) :=
  let free (names : List String) : List String :=
    names.filter fun name => !inConflictTarget name (some target)
  if upsert.defaultToNull then
    (free table.columnNames).mapM fun name =>
      if recordColumns.contains name then assignExcluded name
      else assignNull name
  else (free recordColumns).mapM assignExcluded

/-- The ON CONFLICT clause. -/
def conflictClause (table : Table) (upsert : Upsert)
    (recordColumns : List String) : Result Fragment := do
  let target ← table.conflictTarget upsert.onConflict
  let lead := .word .onConflict :: (← columnList target)
  if upsert.ignoreDuplicates then return lead ++ [.word .doNothing]
  else
    match ← conflictAssignments table upsert target recordColumns with
    | [] => return lead ++ [.word .doNothing]
    | assignments => return lead ++ .word .doUpdate :: commaList assignments

/-- The ON CONFLICT clause of an upsert, if there is one. -/
def conflictPart (table : Table) (upsert : Option Upsert)
    (recordColumns : List String) : Result Fragment :=
  match upsert with
  | none => .ok []
  | some upsert => conflictClause table upsert recordColumns

/-- The objects of a batch. -/
def recordFields (records : List Value) : Result (List Fields) :=
  records.mapM fun record =>
    match record with
    | .object fields => .ok fields
    | _ => refuse .recordNotObject

/-- Check that a later record has no column the first one lacks. -/
def checkRecord (table : Table) (columns : List String) (index : Nat)
    (record : Fields) : Result Unit :=
  match record.names.find? fun name => !columns.contains name with
  | none => .ok ()
  | some name =>
      if table.hasColumn name then refuse (.inconsistentColumns index name)
      else refuse (.unknownColumn name)

/-- The columns of a batch, once all of its records fit them. -/
def batchColumns (table : Table) (records : List Fields) :
    Result (List String) := do
  match records with
  | [] => refuse .emptyBatch
  | first :: rest =>
      let columns := Fields.names first
      if columns.isEmpty then refuse .emptyRecord
      columns.forM (Params.checkColumn table)
      rest.zipIdx.forM fun record =>
        checkRecord table columns (record.2 + 1) record.1
      return columns

/-- The row of values of a record. -/
def recordRow (table : Table) (columns : List String) (record : Fields) :
    Result Fragment := do
  let values ← columns.mapM fun name =>
    boundValue table name ((record.get? name).getD .null)
  return .word .openParen :: commaList (values.map fun value => [.bind value])
    ++ [.word .closeParen]

/-- The INSERT of a batch of records. -/
def insertBatch (table : Table) (records : List Value)
    (upsert : Option Upsert) : Result Statement := do
  let target ← tablePiece table
  if records.isEmpty then refuse .emptyBatch
  let records ← recordFields records
  let columns ← batchColumns table records
  let rows ← records.mapM (recordRow table columns)
  let names ← columnList columns
  let conflict ← conflictPart table upsert columns
  let result ← returning table
  return ⟨[.word .insertInto, target, .word .openColumns] ++ names ++
    .word .values :: commaList rows ++ conflict ++ result⟩

/-- The INSERT of one record; an empty one takes the defaults of all
columns. -/
def insert (table : Table) (record : Fields) (upsert : Option Upsert) :
    Result Statement :=
  if record.isEmpty then do
    let target ← tablePiece table
    let conflict ← conflictPart table upsert []
    let result ← returning table
    return ⟨[.word .insertInto, target, .word .defaultValues] ++ conflict ++
      result⟩
  else insertBatch table [.object record] upsert

/-! ## Update -/

/-- The assignment of a value to a column. -/
def assignment (table : Table) (field : String × Value) : Result Fragment := do
  let name ← column field.1
  let value ← boundValue table field.1 field.2
  return [name, .word .assign, .bind value]

/-- The UPDATE of the rows that meet the filters. -/
def updateWhere (table : Table) (target : Piece) (values : Fields)
    (filters : List Filter) : Result Statement := do
  if values.isEmpty then refuse .noFields
  values.names.forM (Params.checkColumn table)
  let assignments ← values.mapM (assignment table)
  let wherePart ← whereClause filters
  let result ← returning table
  return ⟨[.word .update, target, .word .set] ++ commaList assignments ++
    wherePart ++ result⟩

/-- The UPDATE of the rows a request selects. -/
def update (table : Table) (values : Fields) (params : Params) :
    Result Statement := do
  let target ← tablePiece table
  if params.filters.isEmpty then refuse .updateWithoutFilter
  updateWhere table target values params.filters

/-- The UPDATE of the record with a key. -/
def updateByKey (table : Table) (key : List Value) (values : Fields) :
    Result Statement := do
  let target ← tablePiece table
  let filters ← keyFilters table key
  updateWhere table target values filters

/-! ## Delete -/

/-- The DELETE of the rows that meet the filters. -/
def deleteWhere (table : Table) (target : Piece) (filters : List Filter) :
    Result Statement := do
  let wherePart ← whereClause filters
  let result ← returning table
  return ⟨[.word .deleteFrom, target] ++ wherePart ++ result⟩

/-- The DELETE of the rows a request selects. -/
def delete (table : Table) (params : Params) : Result Statement := do
  let target ← tablePiece table
  if params.filters.isEmpty then refuse .deleteWithoutFilter
  deleteWhere table target params.filters

/-- The DELETE of the record with a key. -/
def deleteByKey (table : Table) (key : List Value) : Result Statement := do
  let target ← tablePiece table
  let filters ← keyFilters table key
  deleteWhere table target filters

end Sql
end TableGate
