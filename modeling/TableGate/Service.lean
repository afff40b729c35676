import TableGate.Connection
import TableGate.Http.Service
import TableGate.Introspection

/-!
# The service

The service puts the engine behind the routes of its catalog. Starting it logs
what it serves: the tables in the order of the catalog, those whose single rows
cannot be addressed, and a summary for each schema.
-/

namespace TableGate

/-- Whom to ask about the service. -/
structure Contact where
  name : String
  email : Option String
deriving DecidableEq, Repr

/-- How the service presents itself. -/
structure Presentation where
  title : String
  version : String
  description : String
  contact : Option Contact
  license : Option Fields
deriving DecidableEq

namespace Config

/-- The contact, if there is an author. -/
def contact (config : Config) : Option Contact :=
  match config.author with
  | some author =>
      if author = "" then none else some ⟨author, config.email⟩
  | none => none

/-- How the service presents itself; what is empty is left out. -/
def presentation (config : Config) : Presentation where
  title := config.projectName
  version := config.version
  description := config.description.getD ""
  contact := config.contact
  license := config.licenseInfo.filter fun fields => !fields.isEmpty

end Config

namespace Catalog

/-- How many tables of a schema there are, and how many of them have rows
that can be addressed. -/
def schemaSummary (catalog : Catalog) (schema : String) : List String :=
  let tables := catalog.tablesOf schema
  [schema, Text.natText tables.length,
    Text.natText (tables.filter Table.hasSingleKey).length]

/-- The summary of the catalog, a row for each schema. -/
def summary (catalog : Catalog) : List (List String) :=
  catalog.schemas.map catalog.schemaSummary

end Catalog

namespace Service

variable {δ : Type}

/-- Log that failures are answered. -/
def logErrorHandlers : Task δ Unit :=
  Task.log fun logger => logger.success "Configured global error handlers"

/-- Log the routes of a table. -/
def logTable (table : Table) : Task δ Unit := do
  Task.log fun logger =>
    logger.info ("Generating routes for: " ++
      Palette.schema.paint table.schema ++ "." ++
      Palette.table.paint table.name)
  if !table.hasSingleKey then
    Task.indented <| Task.log fun logger =>
      logger.warn "No single-column primary key, skipping by-id routes"

/-- Log the routes of the catalog. -/
def logRoutes (catalog : Catalog) : Task δ Unit := do
  Task.log fun logger => logger.startSection "Generating Table Routes"
  catalog.tables.forM logTable
  Task.log fun logger =>
    logger.table ["Schema", "Tables", "By-id routes"] catalog.summary
  Task.log fun logger =>
    logger.success ("Generated table routes for " ++
      Text.natText catalog.tables.length ++ " tables")

/-- Test the connection and log where the service is found. -/
def welcome (config : Config) (connection : Connection)
    (database : Database δ) (host : String) (port : Int) : Task δ Unit := do
  connection.test database
  Task.log fun logger =>
    logger.info (config.projectName ++ " initialized (version " ++
      config.version ++ ")")
  Task.log fun logger =>
    logger.info ("API Documentation: http://" ++ host ++ ":" ++
      Text.intText port ++ "/docs")

end Service
end TableGate
