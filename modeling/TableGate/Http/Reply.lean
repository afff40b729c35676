import TableGate.Http.Body
import TableGate.Prefer
import TableGate.Query.NextPage
import TableGate.Engine

/-!
# Replies

How the outcome of an operation becomes a response. A page names its place in
the list in the header `Content-Range`, as `first-last/total` with `*` for a
total nobody asked for, and links to the next page in `X-Next-Cursor`. A place
of more than 4300 digits is not written, and then there is no reply. A write
names the number of rows it touched, and returns them unless the client wants
less; then the body is empty.
-/

namespace TableGate.Http

open Text (intText)

/-- What a request does to the rows of a table. -/
inductive Operation
  | read
  | create
  | update
  | delete
deriving DecidableEq, Repr

/-- The status of an operation that succeeded. -/
def Operation.status (operation : Operation) (mode : ReturnMode) : Nat :=
  match operation with
  | .create => 201
  | .read => 200
  | .update | .delete => if mode = .representation then 200 else 204

/-- An integer in a header; one with too many digits is not planned for. -/
def headerNumber (i : Int) : Result String :=
  if Text.isWritable i then .ok (intText i)
  else .error (.unexpected .integerTooLong)

/-- The place of a page in its list. A page without rows ends where it
starts. -/
def contentRange (offset : Option Int) (count : Int) (total : Option Int) :
    Result String := do
  let start := offset.getD 0
  let stop := if 0 < count then start + count - 1 else start
  let last ←
    match total with
    | some total => headerNumber total
    | none => .ok "*"
  return (← headerNumber start) ++ "-" ++ (← headerNumber stop) ++ "/" ++ last

/-- The headers of a write. -/
def mutationHeaders (affected : Int) : Headers :=
  [("Content-Range", "*/" ++ intText affected),
    ("X-Affected-Count", intText affected)]

/-- The headers of a page. -/
def pageHeaders (params : Params) (result : ReadResult) : Result Headers := do
  let range ← contentRange params.offset result.rows.length result.total
  match params.nextCursor result.rows params.limit with
  | none => return [("Content-Range", range)]
  | some cursor =>
      return [("Content-Range", range), ("X-Next-Cursor", ← cursor.token)]

/-- The response to a list request. -/
def pageReply (params : Params) (result : ReadResult) : Result Response := do
  let headers ← pageHeaders params result
  Response.ofValue 200 headers (.list (result.rows.map Value.object))

/-- The rows of a write as they are returned: of a single row the object
itself. -/
def writtenRows (single : Bool) (rows : List Row) : Value :=
  match single, rows with
  | true, row :: _ => .object row
  | _, rows => .list (rows.map Value.object)

/-- The response to a write. -/
def writeReply (operation : Operation) (mode : ReturnMode) (single : Bool)
    (rows : List Row) : Result Response :=
  let headers := mutationHeaders rows.length
  let status := operation.status mode
  if mode = .representation then
    Response.ofValue status headers (writtenRows single rows)
  else .ok { status, headers }

end TableGate.Http
