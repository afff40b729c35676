import TableGate.Query.IntegerText
import TableGate.Query.Items

/-!
# Query documents

A complex query may be sent as a JSON document. Its fields are read in a fixed
order, and the first that does not fit refuses the document. Reading is
lenient where no meaning is lost: a truth value may be a word or the numbers
zero and one, and a bound may be a truth value, a whole double or an integer
written as text.

A BETWEEN filter compiles into two comparisons. The plain form asks for both;
the negated form asks for one of `column < min` and `column > max`, as an `or`
group of its own.
-/

namespace TableGate

open Number (Binary64)

/-- A filter of a document. -/
structure FilterEntry where
  column : String
  operator : String
  value : Value

/-- A range of a column, or all that lies outside it. -/
structure Between where
  column : String
  min : Value
  max : Value
  negated : Bool

/-- An order entry of a document. -/
structure OrderEntry where
  column : String
  direction : String
  nulls : String

/-- A query document. -/
structure Document where
  select : String := ""
  filters : List FilterEntry := []
  orFilters : List String := []
  andFilters : List String := []
  betweens : List Between := []
  order : List OrderEntry := []
  limit : Option Nat := none
  offset : Option Nat := none
  count : Option String := none
  groupBy : List String := []
  cursor : Option String := none
  cursorColumn : Option String := none

namespace Shape

/-! ## Parts of a document -/

/-- A text. -/
def text : Value → Shaped String
  | .scalar (.text s) => .ok s
  | _ => .error .notText

/-- A list whose items have a shape. -/
def listOf {α : Type} (item : Value → Shaped α) : Value → Shaped (List α)
  | .list items => items.mapM item
  | _ => .error .notList

/-- The fields of an object, for the model that is read from them. -/
def objectOf (model : String) : Value → Shaped Fields
  | .object fields => .ok fields
  | _ => .error (.notObject model)

/-- A value or null. -/
def optional {α : Type} (item : Value → Shaped α) : Value → Shaped (Option α)
  | .scalar .null => .ok none
  | value => (item value).map some

/-- A field that must be there. -/
def required {α : Type} (fields : Fields) (name : String)
    (item : Value → Shaped α) : Shaped α :=
  match fields.get? name with
  | some value => item value
  | none => .error .missing

/-- A field that may be missing. -/
def optionalField {α : Type} (fields : Fields) (name : String) (absent : α)
    (item : Value → Shaped α) : Shaped α :=
  match fields.get? name with
  | some value => item value
  | none => .ok absent

/-! ## Truth values -/

/-- The words for true, in small letters. -/
def trueWords : List String := ["1", "t", "y", "yes", "on", "true"]

/-- The words for false, in small letters. -/
def falseWords : List String := ["0", "f", "n", "no", "off", "false"]

/-- The smallest integer of 64 bits. -/
def minInt64 : Int := -0x8000000000000000

/-- The largest integer of 64 bits. -/
def maxInt64 : Int := 0x7fffffffffffffff

/-- The integer of 64 bits a double equals, strictly inside the range. -/
def wholeInt64? (x : Binary64) : Option Int :=
  if x.isWhole then
    x.truncate?.filter fun n => minInt64 < n && n ≤ maxInt64
  else none

/-- The truth value of an integer. -/
def ofInteger (n : Int) : Shaped Bool :=
  if n = 0 then .ok false
  else if n = 1 then .ok true
  else .error .unknownBoolean

/-- A truth value. -/
def boolean : Value → Shaped Bool
  | .scalar (.bool b) => .ok b
  | .scalar (.text s) =>
      let word := String.ofList (s.toList.map Char.toLower)
      if trueWords.contains word then .ok true
      else if falseWords.contains word then .ok false
      else .error .unknownBoolean
  | .scalar (.int n) =>
      if minInt64 ≤ n ∧ n ≤ maxInt64 then ofInteger n else .error .notBoolean
  | .scalar (.float x) =>
      match wholeInt64? x with
      | some n => ofInteger n
      | none => .error .notBoolean
  | _ => .error .notBoolean

/-! ## Integers -/

/-- An integer. -/
def integer : Value → Shaped Int
  | .scalar (.int n) => .ok n
  | .scalar (.bool b) => .ok (if b then 1 else 0)
  | .scalar (.text s) => IntegerText.read s
  | .scalar (.float x) =>
      if !x.isFinite then .error .notFinite
      else if !x.isWhole then .error .fraction
      else
        match wholeInt64? x with
        | some n => .ok n
        | none => .error .tooLarge
  | _ => .error .notInteger

/-- A page bound: an integer that is not negative. -/
def bound (value : Value) : Shaped Nat := do
  let n ← integer value
  if n < 0 then .error .negative else .ok n.toNat

end Shape

open Shape in
/-- Read a filter of a document. -/
def FilterEntry.ofValue (value : Value) : Shaped FilterEntry := do
  let fields ← objectOf "PostQueryFilter" value
  return {
    column := ← required fields "column" text
    operator := ← required fields "operator" text
    value := (fields.get? "value").getD .null }

open Shape in
/-- Read a BETWEEN filter of a document. -/
def Between.ofValue (value : Value) : Shaped Between := do
  let fields ← objectOf "PostQueryBetweenFilter" value
  return {
    column := ← required fields "column" text
    min := ← required fields "min" .ok
    max := ← required fields "max" .ok
    negated := ← optionalField fields "negated" false boolean }

open Shape in
/-- Read an order entry of a document. -/
def OrderEntry.ofValue (value : Value) : Shaped OrderEntry := do
  let fields ← objectOf "PostQueryOrderBy" value
  return {
    column := ← required fields "column" text
    direction := ← optionalField fields "direction" "asc" text
    nulls := ← optionalField fields "nulls" "" text }

namespace Document

open Shape in
/-- Read a query document. -/
def ofValue (value : Value) : Shaped Document := do
  let fields ← objectOf "PostQueryRequest" value
  let select ← optionalField fields "select" "" text
  let filters ← optionalField fields "filters" [] (listOf FilterEntry.ofValue)
  let orFilters ← optionalField fields "or_filters" [] (listOf text)
  let andFilters ← optionalField fields "and_filters" [] (listOf text)
  let betweens ← optionalField fields "between_filters" []
    (listOf Between.ofValue)
  let order ← optionalField fields "order" [] (listOf OrderEntry.ofValue)
  let limit ← optionalField fields "limit" none (optional bound)
  let offset ← optionalField fields "offset" none (optional bound)
  let count ← optionalField fields "count" none (optional text)
  let groupBy ← optionalField fields "group_by" [] (listOf text)
  let cursor ← optionalField fields "cursor" none (optional text)
  let cursorColumn ← optionalField fields "cursor_column" none (optional text)
  return { select, filters, orFilters, andFilters, betweens, order, limit,
           offset, count, groupBy, cursor, cursorColumn }

/-! ## Compiling -/

/-- The filter of a column, an operator and a value that is compared as it
is. -/
def comparison (column : String) (operator : Operator) (value : Value)
    (isOr : Bool) (group : Int) : Result Filter := do
  let value ← FilterValue.ofValue value
  return { column, operator := some operator, value, isOr, group }

/-- The two comparisons of a BETWEEN filter. -/
def expandBetween (between : Between) : Numbering (List Filter) := do
  let column := Text.trim between.column
  if between.negated then
    let group ← Numbering.allocate
    let below ← Numbering.lift
      (comparison column .lt between.min true group)
    let above ← Numbering.lift
      (comparison column .gt between.max true group)
    return [below, above]
  else
    let least ← Numbering.lift
      (comparison column .gte between.min false 0)
    let most ← Numbering.lift
      (comparison column .lte between.max false 0)
    return [least, most]

/-- The order entry of an order entry. -/
def orderBy (entry : OrderEntry) : OrderBy where
  column := Text.trim entry.column
  desc := Text.lower (Text.trim entry.direction) = "desc"
  nulls := Text.lower (Text.trim entry.nulls)

/-- The filters of a document: direct ones, ranges, then groups. -/
def compileFilters (document : Document) : Numbering (List Filter) := do
  let direct ← document.filters.mapM fun entry =>
    Numbering.lift
      (Filter.build entry.column entry.operator entry.value false 0)
  let ranges ← document.betweens.mapM expandBetween
  let grouped ← Items.readGroups
    (document.orFilters.map (Connective.or, ·) ++
      document.andFilters.map (Connective.and, ·))
  return direct ++ ranges.flatten ++ grouped

/-- Compile a query document. -/
def compile (document : Document) : Result Params := do
  let selection ← Selection.read document.select
  let filters ← Items.fromOne document.compileFilters
  let cursorColumn ← Cursor.readColumn document.cursorColumn
  let count ←
    match document.count with
    | some token => CountType.read token
    | none => .ok none
  let cursor ← Cursor.resolve document.cursor cursorColumn
  return {
    select := selection.columns
    aggregations := selection.aggregations
    filters, count, cursor, cursorColumn
    order := document.order.map orderBy
    limit := document.limit.map Int.ofNat
    offset := document.offset.map Int.ofNat
    groupBy := (document.groupBy.map Text.trim).filter (· != "") }

end Document
end TableGate
