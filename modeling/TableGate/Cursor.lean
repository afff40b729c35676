import TableGate.Encoding.Base64
import TableGate.Error
import TableGate.Identifier

/-!
# Cursors

A cursor is a position in a list that is ordered by one column: the rows past
`value` on `column`, in a direction. To clients it is an opaque token, the
Base64 text of a small JSON object with the fields `c`, `v` and `d`.

A token is accepted when its object has a column that is not blank and a value
that is a text, a number or a truth value; anything but `true` as the
direction means ascending.
-/

namespace TableGate

/-- A position in a list ordered by one column. -/
structure Cursor where
  column : String
  value : Value
  desc : Bool := false
deriving DecidableEq

namespace Cursor

/-- The object a token holds. -/
def payload (cursor : Cursor) : Value :=
  .object [("c", .text cursor.column), ("v", cursor.value),
    ("d", .bool cursor.desc)]

/-- The token of a cursor, unless its value has no document. -/
def token (cursor : Cursor) : Result String := do
  let document ← encodeDocument .compactAscii cursor.payload
  return .ofList
    (Encoding.Base64.encode (Encoding.Utf8.encode document.toList))

/-- A value that a position can have. -/
def isPosition : Value → Bool
  | .scalar (.text _) | .scalar (.int _) | .scalar (.float _)
  | .scalar (.bool _) => true
  | _ => false

/-- The cursor of the fields of a token. -/
def ofFields (fields : Fields) : Result Cursor :=
  match fields.get? "c" with
  | some (.scalar (.text column)) =>
      if Text.isAllBlank column then refuse .cursorWithoutColumn
      else
        match fields.get? "v" with
        | some value =>
            if isPosition value then
              .ok ⟨Text.trim column, value, fields.get? "d" = some (.bool true)⟩
            else refuse .cursorFormat
        | none => refuse .cursorFormat
  | _ => refuse .cursorWithoutColumn

/-- Read a token. -/
def ofToken (token : String) : Result Cursor :=
  match Encoding.Base64.decode? token.toList with
  | none => refuse .cursorEncoding
  | some bytes =>
      match Json.readBytes true bytes with
      | .ok (.object fields) => ofFields fields
      | _ => refuse .cursorFormat

/-- The keyset column a request names; a blank text names none. -/
def readColumn (column : Option String) : Result (Option String) :=
  match column with
  | none => .ok none
  | some column =>
      if Text.isAllBlank column then .ok none
      else
        let name := Text.trim column
        if isName name.toList then .ok (some name)
        else refuse (.cursorColumn name)

/-- The cursor of a request. A column named beside the token takes the place
of the token's own. -/
def resolve (token column : Option String) : Result (Option Cursor) :=
  match token with
  | none => .ok none
  | some token =>
      if Text.isAllBlank token then .ok none
      else do
        let cursor ← ofToken (Text.trim token)
        match column with
        | some column =>
            if column = "" then return some cursor
            else return some { cursor with column }
        | none => return some cursor

end Cursor
end TableGate
