import TableGate.Table
import TableGate.Task

/-!
# Reading the catalog from a database

A database reports the tables of a schema: their names, their columns with the
type as the database spells it, and the columns of the primary key if there is
one. The catalog holds the tables of all schemas that are served, with their
types in small letters.
-/

namespace TableGate

/-- What a database reports about a table. -/
structure TableReport where
  name : String
  primaryKey : Option (List String) := none
  columns : List Column := []
deriving DecidableEq, Repr

namespace TableReport

/-- The table that is reported. -/
def table (report : TableReport) (schema : String) : Table where
  schema
  name := report.name
  primaryKey := report.primaryKey.getD []
  columns := report.columns.map fun column =>
    { column with dataType := Text.lower column.dataType }

end TableReport

/-- What a database reports about each schema. -/
abbrev Inspector := String → List TableReport

namespace Inspector

variable {δ : Type}

/-- The tables of a schema. -/
def tables (inspector : Inspector) (schema : String) : List Table :=
  (inspector schema).map fun report => report.table schema

/-- Read the tables of a schema and log how many there are. -/
def loadSchema (inspector : Inspector) (schema : String) :
    Task δ (List Table) := do
  let found := inspector.tables schema
  Task.log fun logger =>
    logger.info ("Found " ++ Text.natText found.length ++ " tables in " ++
      Palette.schema.paint schema)
  return found

/-- Read the catalog of the schemas and log how long it took. -/
def loadCatalog (inspector : Inspector) (schemas : List String) :
    Task δ Catalog :=
  Task.timed "Schema introspection" do
    let found ← schemas.mapM inspector.loadSchema
    return .ofList found.flatten

end Inspector
end TableGate
