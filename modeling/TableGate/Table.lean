import TableGate.Path
import TableGate.Query.Params
import TableGate.Text.Case

/-!
# Tables and the catalog

A table has a schema, a name, primary key columns and columns with a type. The
catalog holds the tables that are served. It is read by the key
`schema.name`; of several tables with one key the last counts, at the place of
the first.

## Main results

* `Table.hasColumn_iff`: a table has a column exactly if one bears the name.
-/

namespace TableGate

/-- A column of a table. -/
structure Column where
  name : String
  dataType : String := "text"
  nullable : Bool := true
deriving DecidableEq, Repr

/-- Whether a column holds JSON documents. -/
def Column.isJson (column : Column) : Bool :=
  let small := Text.lower column.dataType
  small == "json" || small == "jsonb"

/-- A table that is served. -/
structure Table where
  schema : String
  name : String
  primaryKey : List String := []
  columns : List Column := []
deriving DecidableEq, Repr

namespace Table

/-- The key of a table in the catalog. -/
def key (table : Table) : String := table.schema ++ "." ++ table.name

/-- The names of the columns, in order. -/
def columnNames (table : Table) : List String := table.columns.map (·.name)

/-- Whether a column bears the name. -/
def hasColumn (table : Table) (name : String) : Bool :=
  table.columns.any fun column => column.name == name

/-- The first column that bears the name. -/
def column? (table : Table) (name : String) : Option Column :=
  table.columns.find? fun column => column.name == name

/-- Whether the first column that bears the name holds JSON documents. -/
def isJsonColumn (table : Table) (name : String) : Bool :=
  (table.column? name).any Column.isJson

theorem hasColumn_iff {table : Table} {name : String} :
    table.hasColumn name = true ↔ name ∈ table.columnNames := by
  simp [hasColumn, columnNames]

end Table

/-- The tables that are served, one for each key. -/
structure Catalog where
  tables : List Table := []

namespace Catalog

/-- Add a table; one of the same key is replaced where it stands. -/
def insert (catalog : Catalog) (table : Table) : Catalog where
  tables :=
    if catalog.tables.any fun other => other.key == table.key then
      catalog.tables.map fun other =>
        if other.key == table.key then table else other
    else catalog.tables ++ [table]

/-- The catalog of a list of tables. -/
def ofList (tables : List Table) : Catalog := tables.foldl insert {}

/-- The table of a schema and a name. -/
def get? (catalog : Catalog) (schema name : String) : Option Table :=
  catalog.tables.find? fun table => table.key == schema ++ "." ++ name

/-- The table of a schema and a name, which must exist. -/
def resolve (catalog : Catalog) (schema name : String) : Result Table :=
  match catalog.get? schema name with
  | some table => .ok table
  | none => .error (.tableNotFound schema name)

end Catalog

/-! ## Checking a request against a table -/

namespace Params

/-- The spelling of a nulls ordering that has a meaning. -/
def isNullsOrdering (token : String) : Bool :=
  token == "" || token == "first" || token == "last"

/-- The columns of a request that may be JSON paths. -/
def pathColumns (params : Params) : List String :=
  params.select.filter (· != "*") ++ params.filters.map (·.column) ++
    params.order.map (·.column)

/-- Check that a filter has an operator. -/
def checkOperator (f : Filter) : Result Unit :=
  if f.operator.isNone then refuse (.unknownOperator f.column) else .ok ()

/-- Check that a table has a column. -/
def checkColumn (table : Table) (column : String) : Result Unit :=
  if table.hasColumn column then .ok () else refuse (.unknownColumn column)

/-- Check that a JSON path starts from a column that holds documents. -/
def checkPath (table : Table) (column : String) : Result Unit := do
  let path ← ColumnPath.ofColumn column
  if path.isPath && !table.isJsonColumn path.base then
    refuse (.notJson path.base)

/-- Check that the word for nulls has a meaning. -/
def checkNulls (entry : OrderBy) : Result Unit :=
  if isNullsOrdering entry.nulls then .ok ()
  else refuse (.nullsOrdering entry.nulls)

/-- Check a request against a table: its operators, its columns, its JSON
paths and its nulls orderings. -/
def validate (params : Params) (table : Table) : Result Unit := do
  params.filters.forM checkOperator
  let columns ← params.referenced
  columns.forM (checkColumn table)
  params.pathColumns.forM (checkPath table)
  params.order.forM checkNulls

end Params
end TableGate
