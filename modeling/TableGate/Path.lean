import TableGate.Error
import TableGate.Identifier

/-!
# JSON paths

A column may be followed by steps into the JSON document it holds:
`data->items->0->>name`. An arrow `->` keeps a JSON value and `->>` extracts
text. A key is a name or an array index, so a path can be rendered into a
statement without escaping anything.

## Main results

* `ColumnPath.isPath_eq_false_iff`: a path without steps is a plain column.
-/

namespace TableGate

/-- How a step continues: with a JSON value or with text. -/
inductive Arrow
  | json
  | text
deriving DecidableEq, Repr

/-- The spelling of an arrow. -/
def Arrow.spelling : Arrow → String
  | json => "->"
  | text => "->>"

/-- What a step looks up: a field by name or an array element by index. -/
inductive PathKey
  | field (name : Identifier)
  | index (digits : Digits)
deriving DecidableEq, Repr

/-- The spelling of a key. -/
def PathKey.spelling : PathKey → String
  | field name => name.text
  | index digits => digits.text

/-- The key a text spells, if it spells one. -/
def PathKey.ofString? (s : String) : Option PathKey :=
  match Identifier.ofString? s with
  | some name => some (.field name)
  | none => (Digits.ofString? s).map .index

/-- One step of a path. -/
structure Step where
  arrow : Arrow
  key : PathKey
deriving DecidableEq, Repr

/-- A column with steps into its document. -/
structure ColumnPath where
  base : String
  steps : List Step
deriving DecidableEq, Repr

namespace ColumnPath

/-- Cut a text at its arrows, the longer arrow first: the text before the
first one, then each arrow with the text after it. -/
def cutArrows : List Char → List Char × List (Arrow × List Char)
  | '-' :: '>' :: '>' :: rest =>
      let (text, others) := cutArrows rest
      ([], (.text, text) :: others)
  | '-' :: '>' :: rest =>
      let (text, others) := cutArrows rest
      ([], (.json, text) :: others)
  | c :: rest =>
      let (text, others) := cutArrows rest
      (c :: text, others)
  | [] => ([], [])

/-- The step of an arrow and the text after it, if that spells a key. -/
def step? (piece : Arrow × List Char) : Option Step :=
  (PathKey.ofString? (.ofList (Text.trimChars piece.2))).map fun key =>
    ⟨piece.1, key⟩

/-- Read a column with its steps; blanks may stand around every part. -/
def ofColumn (column : String) : Result ColumnPath :=
  let (base, pieces) := cutArrows (Text.trimChars column.toList)
  match pieces.mapM step? with
  | some steps => .ok ⟨.ofList (Text.trimChars base), steps⟩
  | none => refuse (.jsonPath column)

/-- Whether there are steps. -/
def isPath (path : ColumnPath) : Bool := !path.steps.isEmpty

/-- Whether the last step extracts text. -/
def extractsText (path : ColumnPath) : Bool :=
  path.steps.getLast?.any fun step => step.arrow == .text

/-- The name of the result column when the path is selected: the last field
name, or the base column if all steps are indexes. -/
def outputName (path : ColumnPath) : String :=
  let fields := path.steps.filterMap fun step =>
    match step.key with
    | .field name => some name.text
    | .index _ => none
  fields.getLast?.getD path.base

theorem isPath_eq_false_iff {path : ColumnPath} :
    path.isPath = false ↔ path.steps = [] := by
  simp [isPath]

end ColumnPath

/-- The table column that a column with steps refers to. -/
def baseColumn (column : String) : Result String := do
  return (← ColumnPath.ofColumn column).base

end TableGate
