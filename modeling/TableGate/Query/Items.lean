import TableGate.Encoding.Utf8
import TableGate.Error
import TableGate.Query.Params
import TableGate.Text.Digit
import TableGate.Text.Split

/-!
# Query strings

A query string is a list of items between ampersands, each a key and a value
around its first equals sign. A plus stands for a blank and `%XX` for a byte;
the bytes must be UTF-8. A percent sign without two hexadecimal digits refuses
the whole string, so nothing malformed is passed through.

Eleven keys are reserved for the clauses of a request; of these `or` and `and`
may be repeated and of the others the first counts. Every other item is a
filter, in one of the forms `column=operator.value` and
`column.operator=value`.
-/

namespace TableGate

/-- The items of a query string, decoded, in order. -/
abbrev Items := List (String × String)

namespace Items

/-! ## Decoding -/

/-- Whether every percent sign has two hexadecimal digits after it. -/
def escapesComplete : List Char → Bool
  | [] => true
  | '%' :: rest =>
      ((rest.take 2).length == 2 &&
        (rest.take 2).all fun c => (Text.hexValue? c).isSome) &&
        escapesComplete rest
  | _ :: rest => escapesComplete rest

/-- The bytes a key or value stands for. -/
def unescape : List Char → Bytes
  | '%' :: a :: b :: rest =>
      match Text.hexNumber? [a, b] with
      | some n => .ofNat n :: unescape rest
      | none => Encoding.Utf8.encodeChar '%' ++ unescape (a :: b :: rest)
  | '+' :: rest => 0x20 :: unescape rest
  | c :: rest => Encoding.Utf8.encodeChar c ++ unescape rest
  | [] => []

/-- The text of a key or value. -/
def decodeText (cs : List Char) : Result String :=
  match Encoding.Utf8.decode (unescape cs) with
  | .ok text => .ok (.ofList text)
  | .error _ => refuse .queryString

/-- The key and value of an item; without an equals sign the value is
empty. -/
def decodeItem (cs : List Char) : Result (String × String) := do
  let (key, value) := (Text.cut? '=' cs).getD (cs, [])
  return (← decodeText key, ← decodeText value)

/-- Decode a query string; empty items are passed over. -/
def ofQueryString (raw : String) : Result Items :=
  if escapesComplete raw.toList then
    ((Text.splitOn '&' raw.toList).filter fun item => !item.isEmpty).mapM
      decodeItem
  else refuse .queryString

/-! ## Compiling -/

/-- The keys that are no columns. -/
def reserved : List String :=
  ["select", "order", "limit", "offset", "or", "and", "on_conflict", "count",
    "group_by", "cursor", "cursor_column"]

/-- The first value of a key. -/
def first? (items : Items) (key : String) : Option String :=
  (items.find? fun item => item.1 == key).map (·.2)

/-- The columns of a conflict target. -/
def onConflict (items : Items) : List String :=
  ((items.first? "on_conflict").map readColumnList).getD []

/-- Read a filter item. -/
def readFilter (key value : String) : Result Filter :=
  match Text.trimChars key.toList with
  | [] => refuse .filterColumn
  | name =>
      match Text.cut? '.' name with
      | some (column, token) =>
          if column = [] ∨ token = [] then
            refuse (.filterItem (.ofList name) value)
          else
            Filter.build (.ofList column) (.ofList token) (.text value) false 0
      | none =>
          match Text.cut? '.' value.toList with
          | some (token, rest) =>
              Filter.build (.ofList name) (.ofList token)
                (.text (.ofList rest)) false 0
          | none => Filter.build (.ofList name) "" (.text value) false 0

/-- The group an item stands for, if it stands for one. -/
def group? (item : String × String) : Option (Connective × String) :=
  if item.1 = "or" then some (.or, item.2)
  else if item.1 = "and" then some (.and, item.2)
  else none

/-- Read the groups of a request one after the other. -/
def readGroups (groups : List (Connective × String)) :
    Numbering (List Filter) := do
  let parts ← groups.mapM fun group => do
    let inner ← Numbering.lift (Group.unwrap group.1 group.2)
    Group.read group.1 inner
  return parts.flatten

/-- Run a numbering from the first group number, one. -/
def fromOne {α : Type} (numbering : Numbering α) : Result α :=
  (numbering.run.run 1).1

/-- Read an optional clause. -/
def clause {α : Type} (items : Items) (key : String) (absent : α)
    (readClause : String → Result α) : Result α :=
  match items.first? key with
  | some value => readClause value
  | none => .ok absent

/-- Compile the items of a query string. -/
def compile (items : Items) : Result Params := do
  let selection ← items.clause "select" {} Selection.read
  let plain ← (items.filter fun item => !reserved.contains item.1).mapM
    fun item => readFilter item.1 item.2
  let grouped ← fromOne (readGroups (items.filterMap group?))
  let cursorColumn ← Cursor.readColumn (items.first? "cursor_column")
  let order ← items.clause "order" [] OrderBy.read
  let limit ← items.clause "limit" none (readBound "limit")
  let offset ← items.clause "offset" none (readBound "offset")
  let count ← items.clause "count" none CountType.read
  let cursor ← Cursor.resolve (items.first? "cursor") cursorColumn
  return {
    select := selection.columns
    aggregations := selection.aggregations
    filters := plain ++ grouped
    order, limit, offset, count, cursor, cursorColumn
    groupBy := ((items.first? "group_by").map readColumnList).getD [] }

end Items
end TableGate
