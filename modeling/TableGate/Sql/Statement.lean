import TableGate.Path
import TableGate.Query.Select
import TableGate.Text.Digit

/-!
# Statements

A statement is a list of pieces: words of a fixed vocabulary, quoted names,
the keys of JSON paths, and values to be bound. Its text and its arguments are
both read off that list, the text with a placeholder `$1`, `$2`, … for each
value in turn. So nothing but names and path keys, which hold letters, digits
and underscores only, ever enters the text from outside, and the placeholders
are numbered as they stand.

A driver that binds by name gets the same text with `:p1`, `:p2`, … in the
place of the placeholders (`PreparedStatement`).

## Main results

* `args_append`, `args_bind`: the arguments are the values of the pieces in
  order.
-/

namespace TableGate.Sql

/-- The vocabulary of statements. -/
inductive Word
  | select
  | selectOne
  | selectCount
  | explain
  | insertInto
  | update
  | deleteFrom
  | fromTable
  | asName
  | whereAll
  | and
  | or
  | groupBy
  | orderBy
  | asc
  | desc
  | nullsFirst
  | nullsLast
  | limit
  | offset
  | defaultValues
  | openColumns
  | values
  | onConflict
  | doNothing
  | doUpdate
  | assign
  | excluded
  | assignNull
  | returning
  | set
  | star
  | comma
  | openParen
  | closeParen
  | asNumeric
  | false
  | isNull
  | isNotNull
  | isTrue
  | isFalse
  | compare (operator : Operator)
  | openList
  | function (function : AggregateFunction)
  | arrow (arrow : Arrow)
deriving DecidableEq, Repr

/-- The spelling of a word, with the blanks around it. -/
def Word.text : Word → String
  | select => "SELECT "
  | selectOne => "SELECT 1"
  | selectCount => "SELECT COUNT(*)"
  | explain => "EXPLAIN (FORMAT JSON) "
  | insertInto => "INSERT INTO "
  | update => "UPDATE "
  | deleteFrom => "DELETE FROM "
  | fromTable => " FROM "
  | asName => " AS "
  | whereAll => " WHERE "
  | and => " AND "
  | or => " OR "
  | groupBy => " GROUP BY "
  | orderBy => " ORDER BY "
  | asc => " ASC"
  | desc => " DESC"
  | nullsFirst => " NULLS FIRST"
  | nullsLast => " NULLS LAST"
  | limit => " LIMIT "
  | offset => " OFFSET "
  | defaultValues => " DEFAULT VALUES"
  | openColumns => " ("
  | values => ") VALUES "
  | onConflict => " ON CONFLICT ("
  | doNothing => ") DO NOTHING"
  | doUpdate => ") DO UPDATE SET "
  | assign => " = "
  | excluded => " = EXCLUDED."
  | assignNull => " = NULL"
  | returning => " RETURNING "
  | set => " SET "
  | star => "*"
  | comma => ", "
  | openParen => "("
  | closeParen => ")"
  | asNumeric => ")::numeric"
  | false => "FALSE"
  | isNull => " IS NULL"
  | isNotNull => " IS NOT NULL"
  | isTrue => " IS TRUE"
  | isFalse => " IS FALSE"
  | compare operator => " " ++ operator.sql ++ " "
  | openList => " IN ("
  | function .count => "COUNT("
  | function .sum => "SUM("
  | function .avg => "AVG("
  | function .min => "MIN("
  | function .max => "MAX("
  | arrow a => a.spelling

/-- One piece of a statement. -/
inductive Piece
  | word (word : Word)
  | table (schema name : Identifier)
  | column (name : Identifier)
  | label (name : Identifier)
  | field (name : Identifier)
  | index (digits : Digits)
  | bind (value : Value)
deriving DecidableEq

/-- A part of a statement. -/
abbrev Fragment := List Piece

/-- A statement. -/
structure Statement where
  pieces : Fragment
deriving DecidableEq

/-! ## Text and arguments -/

/-- The text of a piece other than a value. -/
def Piece.text : Piece → String
  | .word w => w.text
  | .table schema name => schema.quoted ++ "." ++ name.quoted
  | .column name => name.quoted
  | .label name => name.quoted
  | .field name => "'" ++ name.text ++ "'"
  | .index digits => digits.text
  | .bind _ => ""

/-- The text of pieces whose first value is the one after `count` others. -/
def textFrom (count : Nat) : Fragment → String
  | [] => ""
  | .bind _ :: rest =>
      "$" ++ Text.natText (count + 1) ++ textFrom (count + 1) rest
  | piece :: rest => piece.text ++ textFrom count rest

/-- The text of a statement. -/
def Statement.sql (s : Statement) : String := textFrom 0 s.pieces

/-- The values of a fragment, in order. -/
def argsOf (fragment : Fragment) : List Value :=
  fragment.filterMap fun piece =>
    match piece with
    | .bind value => some value
    | _ => none

/-- The arguments of a statement. -/
def Statement.args (s : Statement) : List Value := argsOf s.pieces

theorem args_append (a b : Fragment) :
    argsOf (a ++ b) = argsOf a ++ argsOf b := by
  simp [argsOf]

theorem args_bind (value : Value) (rest : Fragment) :
    argsOf (.bind value :: rest) = value :: argsOf rest := rfl

/-! ## Fragments -/

/-- Fragments with a word between neighbours. -/
def joinFragments (between : Word) : List Fragment → Fragment
  | [] => []
  | [fragment] => fragment
  | fragment :: rest =>
      fragment ++ .word between :: joinFragments between rest

/-- Fragments with commas between neighbours. -/
def commaList (fragments : List Fragment) : Fragment :=
  joinFragments .comma fragments

/-- A name that may stand in a statement. -/
def identifier (name : String) : Result Identifier :=
  match Identifier.ofString? name with
  | some id => .ok id
  | none => refuse (.identifier (.text name))

/-- A quoted column. -/
def column (name : String) : Result Piece := do
  return .column (← identifier name)

/-- Quoted columns with commas between them. -/
def columnList (names : List String) : Result Fragment := do
  return commaList ((← names.mapM column).map ([·]))

/-- A step of a JSON path. -/
def stepPieces (step : Step) : Fragment :=
  .word (.arrow step.arrow) ::
    match step.key with
    | .field name => [.field name]
    | .index digits => [.index digits]

/-- A column with its JSON path. -/
def pathFragment (path : ColumnPath) : Result Fragment := do
  return (← column path.base) :: path.steps.flatMap stepPieces

/-! ## Binding by name -/

/-- A statement whose values are bound by name. -/
structure PreparedStatement where
  sql : String
  params : List (String × Value)
deriving DecidableEq

/-- A text with `:pN` in the place of every `$N`; digits of any script make a
placeholder. -/
def nameBinds : List Char → List Char
  | '$' :: d :: rest =>
      if Text.isDecimalDigit d then ':' :: 'p' :: nameBinds (d :: rest)
      else '$' :: nameBinds (d :: rest)
  | c :: rest => c :: nameBinds rest
  | [] => []

/-- The names of values bound by name, counted from one. -/
def namedArgs (args : List Value) : List (String × Value) :=
  args.zipIdx.map fun arg => ("p" ++ Text.natText (arg.2 + 1), arg.1)

/-- Bind a text and its arguments by name. -/
def prepareText (sql : String) (args : List Value) : PreparedStatement where
  sql := .ofList (nameBinds sql.toList)
  params := namedArgs args

/-- A statement with its values bound by name. -/
def Statement.prepare (s : Statement) : PreparedStatement :=
  prepareText s.sql s.args

end TableGate.Sql
