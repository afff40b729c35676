import TableGate.Error
import TableGate.Json.Reader
import TableGate.Value.Fields

/-!
# Rows of a result

A result has column names and rows of cells. Decoding turns each row into an
object and each cell into a value a client can read: an identifier, also one
that arrives as a tuple of sixteen bytes, becomes its text; bytes become the
JSON document they hold, or else text; a list is decoded item by item; all
else stays as it is. The words for numbers that are not finite are no JSON
here, so bytes that hold them stay text.

Rows may fail to arrive at any point. Then nothing is returned, not even the
rows that had arrived. The single value of an answer may fail to arrive too.

## Main results

* `QueryResult.eq_of_decodeRows`: the rows of a result that arrived whole.
-/

namespace TableGate

/-- What a database raises: an error of its driver, or one of another
kind. -/
inductive Refusal
  | driver (message : String)
  | other (message : String)
deriving DecidableEq, Repr

/-- The wording of what a database raises. -/
def Refusal.message : Refusal → String
  | .driver message | .other message => message

/-- What a database answers to a statement: column names, the rows that
arrive, the failure that ends them early if one does, and the single value
that a count is read from, or the failure that comes in its place. -/
structure QueryResult where
  keys : List String := []
  rows : List (List Value) := []
  failure : Option Refusal := none
  scalar : Except Refusal Value := .ok .null

/-- The value of an integer from 0 to 255. -/
def byteValue? : Value → Option Nat
  | .scalar (.int i) => if 0 ≤ i ∧ i ≤ 255 then some i.toNat else none
  | _ => none

/-- The identifier that sixteen small integers spell. -/
def tupleUuid? (items : List Value) : Option Uuid :=
  if items.length = 16 then (items.mapM byteValue?).map Uuid.ofBytes
  else none

/-- What a byte buffer holds: a JSON document, or else text. -/
def decodeBytes (bytes : Bytes) : Value :=
  match Json.readBytes false bytes with
  | .ok value => value
  | .error _ => .text (.ofList (Encoding.Utf8.decodeLossy bytes))

mutual

/-- Decode a cell. -/
def decodeValue : Value → Value
  | .scalar (.uuid u) => .text u.text
  | .scalar (.buffer _ bytes) => decodeBytes bytes
  | .scalar s => .scalar s
  | .tuple items =>
      match tupleUuid? items with
      | some u => .text u.text
      | none => .tuple items
  | .list items => .list (decodeItems items)
  | .object fields => .object fields
termination_by structural value => value

/-- Decode the items of a list. -/
def decodeItems : List Value → List Value
  | [] => []
  | item :: items => decodeValue item :: decodeItems items
termination_by structural items => items

end

/-- A row of a result: an object from column names to values. -/
abbrev Row := Fields

/-- Decode a row. -/
def decodeRow (keys : List String) (cells : List Value) : Row :=
  Fields.ofPairs (keys.zip (cells.map decodeValue))

/-- Decode all rows of a result. -/
def QueryResult.decodeRows (result : QueryResult) : Result (List Row) :=
  match result.failure with
  | some (.driver message) => .error (.rowsUnreadable message)
  | some (.other message) => .error (.unexpected (.raised message))
  | none => .ok (result.rows.map (decodeRow result.keys))

/-- The single value of a result. Whatever is raised in its place is not
planned for. -/
def QueryResult.single (result : QueryResult) : Result Value :=
  match result.scalar with
  | .ok value => .ok value
  | .error refusal => .error (.unexpected (.raised refusal.message))

/-- The rows of a result that arrived whole. -/
theorem QueryResult.eq_of_decodeRows {result : QueryResult} {rows : List Row}
    (h : result.decodeRows = .ok rows) :
    rows = result.rows.map (decodeRow result.keys) := by
  unfold decodeRows at h
  split at h
  · cases h
  · cases h
  · exact (Except.ok.inj h).symm

end TableGate
