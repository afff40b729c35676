import TableGate.Task

/-!
# The connection to the database

Where the database is and how connections to it are pooled, and a test that
connects, asks for the version and logs what it found. A test that fails is
logged and fails.
-/

namespace TableGate

/-- How connections are pooled. -/
structure Pool where
  size : Int := 5
  overflow : Int := 10
  timeout : Int := 30
  prePing : Bool := true
deriving DecidableEq, Repr

/-- The settings of the connection. -/
structure Connection where
  system : String := "postgresql"
  driver : String := "psycopg"
  user : String := "postgres"
  password : String := ""
  host : String := "localhost"
  port : Int := 5432
  database : String := "postgres"
  pool : Pool := {}
deriving DecidableEq, Repr

/-- The parts of the address of a database. -/
structure Address where
  driver : String
  user : String
  password : Option String
  host : String
  port : Int
  database : String
deriving DecidableEq, Repr

namespace Connection

variable {δ : Type}

/-- The address that is connected to. -/
def address (connection : Connection) : Address where
  driver := connection.system ++ "+" ++ connection.driver
  user := connection.user
  password := if connection.password = "" then none else connection.password
  host := connection.host
  port := connection.port
  database := connection.database

/-- The statement that asks a database for its version. -/
def versionStatement : Sql.PreparedStatement := ⟨"SELECT version()", []⟩

/-- Connect and ask for the version. -/
def version (database : Database δ) : Task δ Value := do
  Task.record .connect
  match database.connect (← get).database with
  | some message => throw (.unexpected (.raised message))
  | none =>
      let answer ← Task.send database versionStatement
      Task.record .close
      match answer with
      | .ok result => Task.lift result.single
      | .error refusal => throw (.unexpected (.raised refusal.message))

/-- Test the connection. -/
def test (connection : Connection) (database : Database δ) :
    Task δ Unit := do
  match ← Task.attempt (version database) with
  | .ok version =>
      Task.log fun logger =>
        logger.success ("Connected to " ++ connection.host ++ ":" ++
          Text.intText connection.port ++ "/" ++ connection.database)
      Task.log fun logger =>
        logger.info ("[dim]" ++ version.display ++ "[/dim]")
  | .error error =>
      Task.log fun logger =>
        logger.error ("Database connection failed: " ++ error.message)
      throw error

end Connection
end TableGate
