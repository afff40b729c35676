import TableGate.Config
import TableGate.Query.Params
import TableGate.Sql.Builder
import TableGate.Task

/-!
# The engine

Each operation checks the request, builds every statement it needs, and only
then opens one transaction in which it runs them. Operations on one record
fail when no row answers.

The total of a list is counted, or taken from the planner, or estimated: the
planner's figure where it reaches a threshold and the count below it.
-/

namespace TableGate

/-- The engine: the tables it serves, its configuration and its database. -/
structure Engine (δ : Type) where
  catalog : Catalog
  config : Config
  database : Database δ

/-- The rows of a page, and the total if it was asked for. -/
structure ReadResult where
  rows : List Row
  total : Option Int

/-! ## Integers in results -/

/-- The integer a text spells; `shown` is what a refusal quotes. -/
def spelled (shown : Value) :
    Except Text.IntegerFault Int → Except NotInteger Int
  | .ok n => .ok n
  | .error (.tooManyDigits count) => .error (.tooManyDigits count)
  | .error .malformed => .error (.malformed shown)

/-- The integer that bytes spell in ASCII. A refusal quotes the first 200 of
them. -/
def bytesInteger (bytes : Bytes) : Except NotInteger Int :=
  spelled (.scalar (.buffer .fixed (bytes.take 200)))
    (Text.readAsciiInteger (bytes.map fun b => Char.ofNat b.toNat))

/-- The integer a value stands for: a number cut toward zero, a truth value as
zero or one, a text or bytes that spell an integer, an identifier as its
number. -/
def Value.toInteger (value : Value) : Except NotInteger Int :=
  match value with
  | .scalar (.bool b) => .ok (if b then 1 else 0)
  | .scalar (.int n) => .ok n
  | .scalar (.float x) =>
      match x.truncate? with
      | some n => .ok n
      | none =>
          if x = .nan then .error (.noNumber "float NaN")
          else .error (.infinite "float infinity")
  | .scalar (.decimal d) =>
      match d with
      | .infinity _ => .error (.infinite "Infinity")
      | .nan .. => .error (.noNumber "NaN")
      | d => .ok (d.truncate?.getD 0)
  | .scalar (.text s) => spelled value (Text.readInteger s)
  | .scalar (.buffer _ bytes) => bytesInteger bytes
  | .scalar (.uuid u) => .ok u.bits.toNat
  | .scalar (.timestamp _) => .error (.kind "datetime.datetime")
  | .scalar (.date _) => .error (.kind "datetime.date")
  | value => .error (.kind value.kindName)

/-- Whether a value counts as nothing: null, false, zero, or empty. -/
def Value.isEmptyOrZero : Value → Bool
  | .scalar .null => true
  | .scalar (.bool b) => !b
  | .scalar (.int n) => n == 0
  | .scalar (.float x) => x.isZero
  | .scalar (.decimal d) => d.isZero
  | .scalar (.text s) => s == ""
  | .scalar (.buffer _ bytes) => bytes.isEmpty
  | .scalar _ => false
  | .list items => items.isEmpty
  | .tuple items => items.isEmpty
  | .object fields => fields.isEmpty

/-- The total that a counting statement answers with. -/
def exactTotal (scalar : Value) : Result Int :=
  if scalar.isEmptyOrZero then .ok 0
  else
    match scalar.toInteger with
    | .ok n => .ok n
    | .error cause => .error (.unexpected (.countNotInteger cause))

/-- The plan that a planning statement answers with; text and bytes are read
as a document. -/
def readPlan (scalar : Value) : Result Value :=
  let ofText (s : String) : Result Value :=
    match Json.readString true s with
    | .ok plan => .ok plan
    | .error error => .error (.unexpected (.planMalformed error))
  match scalar with
  | .scalar (.buffer .view _) => .ok scalar
  | .scalar (.buffer _ bytes) =>
      match Encoding.Utf8.decode bytes with
      | .ok cs => ofText (.ofList cs)
      | .error fault => .error (.unexpected (.undecodableText ⟨.utf8, fault⟩))
  | .scalar (.text s) => ofText s
  | plan => .ok plan

/-- The row estimate of a plan: the field `Plan Rows` of the field `Plan` of
its first item. -/
def planRows? (plan : Value) : Option Value :=
  let first : Option Value :=
    match plan with
    | .list items => items.head?
    | .tuple items => items.head?
    | _ => none
  match first with
  | some (.object fields) =>
      match Fields.get? fields "Plan" with
      | some (.object inner) => Fields.get? inner "Plan Rows"
      | _ => none
  | _ => none

/-- The refusal of a plan. It quotes the plan, which fails where the plan
cannot be shown. -/
def planRefusal (plan : Value) : Error :=
  if plan.isShowable then .planUnexpected plan
  else .unexpected .integerTooLong

/-- The total that a planning statement answers with. -/
def plannedTotal (scalar : Value) : Result Int := do
  let plan ← readPlan scalar
  match planRows? plan with
  | none => .error (planRefusal plan)
  | some rows =>
      match rows.toInteger with
      | .ok n => .ok n
      | .error (.infinite text) =>
          .error (.unexpected (.countNotInteger (.infinite text)))
      | .error _ => .error (planRefusal plan)

/-- The total that is read off the answer to a COUNT. -/
def QueryResult.count (result : QueryResult) : Result Int := do
  exactTotal (← result.single)

/-- The total that is read off the answer to a planning statement. -/
def QueryResult.estimate (result : QueryResult) : Result Int := do
  plannedTotal (← result.single)

/-! ## Running statements -/

namespace Engine

open Sql (Builder Rendered)

variable {δ : Type}

/-- The log line for a statement. There is none for values that cannot be
shown. -/
def statementLine (r : Rendered) : Result String :=
  let args := Value.list r.args
  if args.isShowable then
    .ok (Palette.sql.paint (escapeMarkup r.sql) ++ " " ++
      escapeMarkup args.quoted)
  else .error (.unexpected .integerTooLong)

/-- Run a statement. It is logged before that if it should be, and a refusal
of the driver is logged after it. -/
def execute (engine : Engine δ) (r : Rendered) : Task δ QueryResult := do
  if engine.config.logSql then
    let line ← Task.lift (statementLine r)
    Task.log fun logger => logger.debug line
  match ← Task.send engine.database r.prepare with
  | .ok result => return result
  | .error (.driver message) =>
      Task.log fun logger =>
        logger.error ("Statement failed: " ++ escapeMarkup message)
      throw (.statementFailed message)
  | .error (.other message) => throw (.unexpected (.raised message))

/-- Run a statement and decode its rows. -/
def fetch (engine : Engine δ) (r : Rendered) : Task δ (List Row) := do
  Task.lift (← engine.execute r).decodeRows

/-- Run a statement that writes, in a transaction of its own. -/
def mutate (engine : Engine δ) (r : Rendered) : Task δ (List Row) :=
  Task.transaction engine.database (engine.fetch r)

/-! ## Totals -/

/-- How a total is found: the statements for it, built beforehand. -/
inductive CountPlan
  | exact (count : Rendered)
  | planned (explain : Rendered)
  | estimated (count explain : Rendered)

/-- The statements for a total. -/
def countPlan (table : Table) (params : Params) : CountType → Result CountPlan
  | .exact => do return .exact (← Builder.count table params)
  | .planned => do return .planned (← Builder.explain table params)
  | .estimated => do
      let count ← Builder.count table params
      return .estimated count (← Builder.explain table params)

/-- Count. -/
def exactCount (engine : Engine δ) (r : Rendered) : Task δ Int := do
  Task.lift (← engine.execute r).count

/-- Ask the planner. -/
def plannedCount (engine : Engine δ) (r : Rendered) : Task δ Int := do
  Task.lift (← engine.execute r).estimate

/-- Find a total. -/
def runCount (engine : Engine δ) : CountPlan → Task δ Int
  | .exact count => engine.exactCount count
  | .planned explain => engine.plannedCount explain
  | .estimated count explain => do
      let planned ← engine.plannedCount explain
      if planned < engine.config.estimatedCountThreshold then
        engine.exactCount count
      else return planned

/-! ## Reading -/

/-- The page of a list request. -/
def select (engine : Engine δ) (table : Table) (params : Params) :
    Task δ ReadResult := do
  Task.lift (params.validate table)
  let r ← Task.lift (Builder.select table params)
  let plan ← Task.lift (params.count.mapM (countPlan table params))
  Task.transaction engine.database do
    let rows ← engine.fetch r
    let total ← plan.mapM engine.runCount
    return { rows, total }

/-- The parts of a key; a value that is no sequence is the only one. -/
def keyParts : Value → List Value
  | .list items => items
  | .tuple items => items
  | value => [value]

/-- The failure of an operation that finds no record. It names the key, which
fails where the key cannot be shown. -/
def noRecord (table : Table) (key : Value) : Error :=
  if key.isShowable then .recordNotFound table.key key
  else .unexpected .integerTooLong

/-- The record with a key. -/
def get (engine : Engine δ) (table : Table) (key : Value)
    (params : Option Params) : Task δ Row := do
  if let some params := params then Task.lift (params.validate table)
  let r ← Task.lift
    (Builder.selectByKey table (keyParts key) (params.getD {}))
  match ← Task.transaction engine.database (engine.fetch r) with
  | row :: _ => return row
  | [] => throw (noRecord table key)

/-! ## Writing -/

/-- Fail when no row answered. -/
def requireRow (table : Table) (key : Value) (rows : List Row) :
    Task δ (List Row) :=
  if rows.isEmpty then throw (noRecord table key) else return rows

/-- The statement that inserts a body: one record or a batch of them. -/
def insertStatement (table : Table) (body : Value) (upsert : Option Upsert) :
    Result Rendered := do
  let _ ← Sql.tablePiece table
  match body with
  | .object record => Builder.insert table record upsert
  | .list records => Builder.insertBatch table records upsert
  | _ => refuse .bodyNotRecords

/-- Insert one record or a batch. -/
def insert (engine : Engine δ) (table : Table) (body : Value)
    (upsert : Option Upsert) : Task δ (List Row) := do
  engine.mutate (← Task.lift (insertStatement table body upsert))

/-- Update the record with a key. -/
def updateByKey (engine : Engine δ) (table : Table) (key : Value)
    (values : Fields) : Task δ (List Row) := do
  let r ← Task.lift (Builder.updateByKey table (keyParts key) values)
  requireRow table key (← engine.mutate r)

/-- Update the rows that meet the filters. -/
def update (engine : Engine δ) (table : Table) (values : Fields)
    (params : Params) : Task δ (List Row) := do
  Task.lift (params.validate table)
  engine.mutate (← Task.lift (Builder.update table values params))

/-- Delete the record with a key. -/
def deleteByKey (engine : Engine δ) (table : Table) (key : Value) :
    Task δ (List Row) := do
  let r ← Task.lift (Builder.deleteByKey table (keyParts key))
  requireRow table key (← engine.mutate r)

/-- Delete the rows that meet the filters. -/
def delete (engine : Engine δ) (table : Table) (params : Params) :
    Task δ (List Row) := do
  Task.lift (params.validate table)
  engine.mutate (← Task.lift (Builder.delete table params))

end Engine
end TableGate
