import TableGate.Http.Reply
import TableGate.Http.Route
import TableGate.Query.Document

/-!
# Handling a request

What each route does with a request. Everything that the client sent is read
before the database is used, in a fixed order, so the first fault of a request
is the one that is answered. Filters of the query string select rows where a
collection is read, updated or deleted; the routes on single rows take the key
from the path, and only reading one looks at the query string.
-/

namespace TableGate.Http

/-- The preferences of a request. -/
def Request.preferences (request : Request) : Preferences :=
  .ofHeader (request.header? "Prefer")

/-- The page that is served, with the way its total is found: as the request
says, or else as the client prefers. -/
def paginate (pagination : Pagination) (params : Params)
    (preferences : Preferences) : Params :=
  let page := pagination.apply params.limit params.offset
  { params with
    limit := some page.limit
    offset := some page.offset
    count := params.count <|> preferences.count }

/-- The conflict handling of a creation. -/
def upsert? (items : Items) (preferences : Preferences) : Option Upsert :=
  let onConflict := items.onConflict
  if preferences.resolution.isNone && onConflict.isEmpty then none
  else
    some {
      onConflict
      ignoreDuplicates := preferences.resolution = some .ignoreDuplicates
      defaultToNull := preferences.missingDefault }

/-- The request that a query document asks for. -/
def documentParams (request : Request) : Result Params := do
  match Document.ofValue (← request.document) with
  | .ok document => document.compile
  | .error fault => refuse (.bodyShape fault)

end TableGate.Http

namespace TableGate.Engine

open Http

variable {δ : Type}

/-- Answer with a page of a list. -/
def answerPage (engine : Engine δ) (table : Table) (request : Request)
    (read : Request → Result Params) : Task δ Response := do
  let preferences := request.preferences
  let params ← Task.lift (read request)
  let params := paginate engine.config.pagination params preferences
  Task.lift (pageReply params (← engine.select table params))

/-- Create the records of the body. -/
def answerCreate (engine : Engine δ) (table : Table) (request : Request) :
    Task δ Response := do
  let items ← Task.lift request.items
  let preferences := request.preferences
  let body ← Task.lift request.document
  let rows ← engine.insert table body (upsert? items preferences)
  Task.lift (writeReply .create preferences.returnMode false rows)

/-- Update the rows that meet the filters. -/
def answerUpdate (engine : Engine δ) (table : Table) (request : Request) :
    Task δ Response := do
  let params ← Task.lift request.params
  let values ← Task.lift request.fields
  let rows ← engine.update table values params
  Task.lift (writeReply .update request.preferences.returnMode false rows)

/-- Delete the rows that meet the filters. -/
def answerDelete (engine : Engine δ) (table : Table) (request : Request) :
    Task δ Response := do
  let params ← Task.lift request.params
  let rows ← engine.delete table params
  Task.lift (writeReply .delete request.preferences.returnMode false rows)

/-- Answer with a single row. -/
def answerGetOne (engine : Engine δ) (table : Table) (key : Value)
    (request : Request) : Task δ Response := do
  let params ← Task.lift request.params
  let row ← engine.get table key (some params)
  Task.lift (Response.ofValue 200 [] (.object row))

/-- Update a single row. -/
def answerUpdateOne (engine : Engine δ) (table : Table) (key : Value)
    (request : Request) : Task δ Response := do
  let values ← Task.lift request.fields
  let rows ← engine.updateByKey table key values
  Task.lift (writeReply .update request.preferences.returnMode true rows)

/-- Delete a single row. -/
def answerDeleteOne (engine : Engine δ) (table : Table) (key : Value)
    (request : Request) : Task δ Response := do
  let rows ← engine.deleteByKey table key
  Task.lift (writeReply .delete request.preferences.returnMode true rows)

/-- Answer a request at a route, with the segment of its path. -/
def answer (engine : Engine δ) (route : Route) (segment : String)
    (request : Request) : Task δ Response :=
  let table := route.table
  match route.action with
  | .list => engine.answerPage table request Request.params
  | .query => engine.answerPage table request documentParams
  | .create => engine.answerCreate table request
  | .update => engine.answerUpdate table request
  | .delete => engine.answerDelete table request
  | .getOne => engine.answerGetOne table (.text segment) request
  | .updateOne => engine.answerUpdateOne table (.text segment) request
  | .deleteOne => engine.answerDeleteOne table (.text segment) request

end TableGate.Engine
