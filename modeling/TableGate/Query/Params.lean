import TableGate.Cursor
import TableGate.Query.Clause
import TableGate.Query.Select

/-!
# Compiled requests

Query strings and query documents compile into one structure, and nothing
after that knows which of the two a request came as.

A request uses keyset pagination when it names a keyset column or carries a
cursor. The direction of the keyset column is that of its first entry in the
order list, else that of the cursor, else ascending.
-/

namespace TableGate

/-- A compiled request. -/
structure Params where
  select : List String := []
  aggregations : List Aggregation := []
  filters : List Filter := []
  order : List OrderBy := []
  limit : Option Int := none
  offset : Option Int := none
  count : Option CountType := none
  groupBy : List String := []
  cursor : Option Cursor := none
  cursorColumn : Option String := none
deriving DecidableEq

namespace Params

/-- The column of keyset pagination, if the request uses it. -/
def keysetColumn (params : Params) : Option String :=
  match params.cursorColumn with
  | some column =>
      if column = "" then params.cursor.map (·.column) else some column
  | none => params.cursor.map (·.column)

/-- Whether the keyset column is ordered descending. -/
def keysetDesc (params : Params) : Bool :=
  match params.order.find? fun entry =>
      some entry.column == params.keysetColumn with
  | some entry => entry.desc
  | none => (params.cursor.map (·.desc)).getD false

/-- The columns a request mentions, as they are written, in a fixed order. -/
def mentioned (params : Params) : List String :=
  params.select.filter (· != "*") ++
    params.aggregations.filterMap (·.column) ++
    params.filters.map (·.column) ++
    params.order.map (·.column) ++
    params.groupBy ++
    params.keysetColumn.toList

/-- The table columns a request mentions; a JSON path counts as the column it
starts from. -/
def referenced (params : Params) : Result (List String) :=
  params.mentioned.mapM baseColumn

end Params
end TableGate
