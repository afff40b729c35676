import TableGate.Error
import TableGate.Log
import TableGate.Row
import TableGate.Sql.Statement

/-!
# Work against a database

A task is a computation that may fail, write to the log and use a database.
What it did to the database is kept as a trace of events. The database itself
is a parameter: a state of any type and what that state answers to a
connection and to a statement, so that a law about tasks holds for every
database, however it fails.

A transaction runs a task between its begin and its end: commit when the task
succeeds, rollback when it fails, and the failure goes on. Opening it may fail,
and then the task is not run; so may the commit, and then it is a rollback
after all.

## Main results

* `attempt_run`: an attempted task never fails.
* `transaction_run_of_opens`: a transaction that cannot be opened does nothing.
* `transaction_run`: one that can has the outcome of its task and its commit,
  which decides how it ends.
-/

namespace TableGate

open Number (Binary64)

/-- A database with states of a type: what is raised when it is connected to,
when a transaction is opened and when one is committed, if anything is, and
what it answers to a statement. -/
structure Database (δ : Type) where
  connect : δ → Option String
  execute : δ → Sql.PreparedStatement → Except Refusal QueryResult × δ
  opens : δ → Option String := fun _ => none
  commits : δ → Option String := fun _ => none

/-- What comes of a task that has this outcome, once it is committed. -/
def Database.commit {δ α : Type} (database : Database δ) (state : δ)
    (outcome : Result α) : Result α := do
  let a ← outcome
  match database.commits state with
  | some message => .error (.unexpected (.raised message))
  | none => return a

theorem Database.commit_of_none {δ α : Type} {database : Database δ} {state : δ}
    (h : database.commits state = none) (outcome : Result α) :
    database.commit state outcome = outcome := by
  unfold Database.commit
  rw [h]
  exact bind_pure outcome

theorem Database.commit_of_some {δ α : Type} {database : Database δ} {state : δ}
    {message : String} (h : database.commits state = some message) (a : α) :
    database.commit state (.ok a) = .error (.unexpected (.raised message)) := by
  unfold Database.commit
  rw [h]
  rfl

/-- What was done to a database. -/
inductive Event
  | connect
  | close
  | begin
  | commit
  | rollback
  | statement (prepared : Sql.PreparedStatement)
deriving DecidableEq

/-- The log, the state of the database and what was done to it. -/
structure World (δ : Type) where
  logger : Logger
  database : δ
  events : List Event := []

/-- Computations that may fail, log, and use a database. -/
abbrev Task (δ α : Type) := ExceptT Error (StateM (World δ)) α

namespace Task

variable {δ α : Type}

/-- A plain result as a task. -/
def lift (result : Result α) : Task δ α := ExceptT.mk (pure result)

/-- Run a task and keep its outcome as a value. -/
def attempt (task : Task δ α) : Task δ (Result α) :=
  ExceptT.mk (task.run >>= fun outcome => pure (.ok outcome))

theorem attempt_run (task : Task δ α) (world : World δ) :
    (attempt task).run.run world =
      (.ok (task.run.run world).1, (task.run.run world).2) := rfl

/-! ## Logging -/

/-- Write to the log. -/
def log (write : Logger → Logger) : Task δ Unit :=
  modify fun world => { world with logger := write world.logger }

/-- Run a task with its log lines indented. -/
def indented (task : Task δ α) : Task δ α := do
  log Logger.deeper
  let outcome ← attempt task
  log Logger.shallower
  lift outcome

/-- Read the clock. -/
def tick : Task δ Binary64 := do
  let (now, logger) := (← get).logger.tick
  modify fun world => { world with logger }
  return now

/-- Run a task and log how long it took, also when it fails. -/
def timed (label : String) (task : Task δ α) : Task δ α := do
  let start ← tick
  let outcome ← attempt task
  let stop ← tick
  log fun logger => logger.report label start stop
  lift outcome

/-! ## The database -/

/-- Note what was done to the database. -/
def record (event : Event) : Task δ Unit :=
  modify fun world => { world with events := world.events ++ [event] }

/-- How a transaction with this outcome ends. -/
def ending : Result α → Event
  | .ok _ => .commit
  | .error _ => .rollback

/-- Run a task in a transaction. -/
def transaction (database : Database δ) (task : Task δ α) : Task δ α := do
  match database.opens (← get).database with
  | some message => throw (.unexpected (.raised message))
  | none =>
      record .begin
      let outcome ← attempt task
      let outcome := database.commit (← get).database outcome
      record (ending outcome)
      lift outcome

theorem transaction_run_of_opens {database : Database δ} {world : World δ}
    {message : String} (h : database.opens world.database = some message)
    (task : Task δ α) :
    (transaction database task).run.run world =
      (.error (.unexpected (.raised message)), world) := by
  show (match database.opens world.database with
    | some message => throw (.unexpected (.raised message))
    | none => _ : Task δ α).run.run world = _
  rw [h]
  rfl

theorem transaction_run {database : Database δ} {world : World δ}
    (h : database.opens world.database = none) (task : Task δ α) :
    (transaction database task).run.run world =
      let inner := task.run.run
        { world with events := world.events ++ [.begin] }
      let outcome := database.commit inner.2.database inner.1
      (outcome,
        { inner.2 with events := inner.2.events ++ [ending outcome] }) := by
  show (match database.opens world.database with
    | some message => throw (.unexpected (.raised message))
    | none => _ : Task δ α).run.run world = _
  rw [h]
  rfl

/-- Send a statement and take what the database answers. -/
def send (database : Database δ) (prepared : Sql.PreparedStatement) :
    Task δ (Except Refusal QueryResult) := do
  record (.statement prepared)
  let world ← get
  let (answer, state) := database.execute world.database prepared
  set { world with database := state }
  return answer

end Task
end TableGate
