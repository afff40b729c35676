import TableGate.Filter.Group
import TableGate.Text.WordTable

/-!
# Select lists

A select list names plain columns, JSON paths and aggregates, such as
`id,total:sum(price)`. A star, a blank item and an empty list all mean every
column and leave nothing behind. An aggregate is one of five functions over a
column, with a label before a colon if wanted; only `count` does without a
column.

## Main results

* `AggregateFunction.ofName?_name`: every function is read from its name.
-/

namespace TableGate

/-- The aggregate functions. -/
inductive AggregateFunction
  | count
  | sum
  | avg
  | min
  | max
deriving DecidableEq, Repr

namespace AggregateFunction

/-- All aggregate functions. -/
def all : List AggregateFunction := [count, sum, avg, .min, .max]

/-- The name of a function in requests. -/
def name : AggregateFunction → String
  | count => "count"
  | sum => "sum"
  | avg => "avg"
  | .min => "min"
  | .max => "max"

/-- The function a name stands for, case aside. -/
def ofName? (s : String) : Option AggregateFunction :=
  let small := Text.lower s
  all.find? fun function => function.name == small

theorem ofName?_name (function : AggregateFunction) :
    ofName? function.name = some function := by
  cases function <;> decide +kernel

end AggregateFunction

/-- A function over a column, or over whole rows when there is none. -/
structure Aggregation where
  function : AggregateFunction
  column : Option String := none
  label : String := ""
deriving DecidableEq, Repr

/-- The name of the result column: the label, or one made of function and
column. -/
def Aggregation.outputName (a : Aggregation) : String :=
  if a.label ≠ "" then a.label
  else
    match a.column with
    | none => a.function.name
    | some column => a.function.name ++ "_" ++ column

/-- The columns and aggregates of a select list; no columns mean all. -/
structure Selection where
  columns : List String := []
  aggregations : List Aggregation := []
deriving DecidableEq, Repr

namespace Selection

/-- The label, function name and argument of an aggregate. -/
structure Call where
  label : List Char
  name : List Char
  argument : List Char

/-- A parenthesis of either kind. -/
def isParen (c : Char) : Bool := c == '(' || c == ')'

/-- The text before the first colon as a label, if that text is not empty
and holds no parenthesis, and the text the call itself stands in. -/
def cutLabel (item : List Char) : List Char × List Char :=
  let plain (c : Char) : Bool := !isParen c && c != ':'
  match item.takeWhile plain, item.dropWhile plain with
  | c :: lead, ':' :: rest => (c :: lead, rest)
  | _, _ => ([], item)

/-- The parts of an aggregate: a label with a colon if there is one, a name
of word characters, and an argument between parentheses that holds none. -/
def call? (item : List Char) : Option Call :=
  let (label, body) := cutLabel item
  match body.takeWhile Text.isWord, body.dropWhile Text.isWord with
  | c :: name, '(' :: rest =>
      if rest.dropWhile (fun d => !isParen d) = [')'] then
        some ⟨label, c :: name, rest.takeWhile fun d => !isParen d⟩
      else none
  | _, _ => none

/-- The aggregate of a call. -/
def aggregate (call : Call) : Result Aggregation :=
  let name : String := .ofList call.name
  match AggregateFunction.ofName? name with
  | none => refuse (.aggregateName name)
  | some function =>
      let argument := Text.trimChars call.argument
      let label : String := .ofList (Text.trimChars call.label)
      if argument = [] ∨ argument = ['*'] then
        if function = .count then .ok { function, label }
        else refuse (.aggregateColumn function.name)
      else .ok { function, column := some (.ofList argument), label }

/-- One item of a select list. -/
inductive Item
  | everything
  | column (name : String)
  | aggregate (aggregation : Aggregation)

/-- Read one item. -/
def readItem (segment : List Char) : Result Item :=
  let item := Text.trimChars segment
  if item = [] ∨ item = ['*'] then .ok .everything
  else if !item.any isParen then .ok (.column (.ofList item))
  else
    match call? item with
    | none => refuse (.selectItem (.ofList item))
    | some call => (aggregate call).map .aggregate

/-- The selection of a list of items. -/
def ofItems (items : List Item) : Selection where
  columns := items.filterMap fun item =>
    match item with
    | .column name => some name
    | _ => none
  aggregations := items.filterMap fun item =>
    match item with
    | .aggregate aggregation => some aggregation
    | _ => none

/-- Read a select list. -/
def read (s : String) : Result Selection :=
  if Text.isAllBlank s then .ok {}
  else do
    let segments ← Group.splitTopLevel s.toList
    return ofItems (← segments.mapM readItem)

end Selection
end TableGate
