import TableGate.Json.Writer
import TableGate.Operator

/-!
# What can go wrong

An operation fails for one of four reasons. The request is not valid
(`Invalid`), which is found out before any statement is sent; a table or a
record does not exist; the database refuses a statement or cannot deliver what
it promised; or something happens that nobody planned for (`Unexpected`). Each
cause is a constructor with what it needs for its message.

## Main results

* `Error.status_eq_400_iff`: exactly invalid requests answer 400.
-/

namespace TableGate

/-- Why a document does not have the shape of a query document. -/
inductive ShapeFault
  | missing
  | notText
  | notList
  | notObject (model : String)
  | notBoolean
  | unknownBoolean
  | notInteger
  | fraction
  | malformedInteger
  | notFinite
  | tooLarge
  | negative
deriving DecidableEq, Repr

/-- The wording of a shape fault. -/
def ShapeFault.message : ShapeFault → String
  | missing => "Field required"
  | notText => "Input should be a valid string"
  | notList => "Input should be a valid list"
  | notObject model =>
      "Input should be a valid dictionary or instance of " ++ model
  | notBoolean => "Input should be a valid boolean"
  | unknownBoolean =>
      "Input should be a valid boolean, unable to interpret input"
  | notInteger => "Input should be a valid integer"
  | fraction =>
      "Input should be a valid integer, got a number with a fractional part"
  | malformedInteger =>
      "Input should be a valid integer, unable to parse string as an integer"
  | notFinite => "Input should be a finite number"
  | tooLarge =>
      "Unable to parse input string as an integer, exceeded maximum size"
  | negative => "Input should be greater than or equal to 0"

/-- Computations that may find a part of the wrong shape. -/
abbrev Shaped (α : Type) := Except ShapeFault α

/-- Why a request is not valid. -/
inductive Invalid
  | unbalanced (text : String)
  | groupFormat (connective : Connective) (text : String)
  | nestedSequence
  | unsupportedValue (kind : String)
  | countType (token : String)
  | selectItem (item : String)
  | aggregateName (name : String)
  | aggregateColumn (function : String)
  | orderItem (item : String)
  | bound (name value : String)
  | queryString
  | filterColumn
  | filterItem (key value : String)
  | cursorEncoding
  | cursorFormat
  | cursorWithoutColumn
  | cursorColumn (column : String)
  | jsonPath (column : String)
  | identifier (name : Value)
  | unknownOperator (column : String)
  | unknownColumn (column : String)
  | notJson (column : String)
  | nullsOrdering (token : String)
  | conflictColumn (column : String)
  | noConflictTarget (table : String)
  | emptyBatch
  | recordNotObject
  | emptyRecord
  | inconsistentColumns (index : Nat) (column : String)
  | noFields
  | updateWithoutFilter
  | deleteWithoutFilter
  | noPrimaryKey (table : String)
  | primaryKeyCount (expected actual : Nat)
  | listRequired (operator : Operator) (column : String)
  | nullRefused (operator : Operator) (column : String)
  | listRefused (operator : Operator) (column : String)
  | isValue (value : Value)
  | bodyEmpty
  | bodyMalformed (error : Json.ReadError)
  | bodyShape (fault : ShapeFault)
  | bodyNotObject
  | bodyNotRecords

open Text (natText)

/-- The wording of a request that is not valid. -/
def Invalid.message : Invalid → String
  | unbalanced text => "Unbalanced parentheses in filter expression: " ++ text
  | groupFormat connective text =>
      "invalid " ++ connective.word ++ " filter format: " ++ text
  | nestedSequence => "Nested sequences are not supported in filter values"
  | unsupportedValue kind => "Unsupported filter value type: " ++ kind
  | countType token => "Invalid count type: " ++ token
  | selectItem item => "Invalid select expression: " ++ item
  | aggregateName name => "Unknown aggregate function: " ++ name
  | aggregateColumn function => function ++ "() requires a column"
  | orderItem item => "Invalid order format: " ++ item
  | bound name value => "Invalid " ++ name ++ ": " ++ value
  | queryString => "Invalid query string"
  | filterColumn => "Invalid filter: empty column name"
  | filterItem key value => "Invalid filter: " ++ key ++ "=" ++ value
  | cursorEncoding => "invalid cursor encoding"
  | cursorFormat => "invalid cursor format"
  | cursorWithoutColumn => "cursor missing column"
  | cursorColumn column => "invalid cursor_column: " ++ column
  | jsonPath column => "Invalid JSON path: " ++ column
  | identifier name => "Invalid identifier: " ++ name.quoted
  | unknownOperator column => "Unknown operator for column: " ++ column
  | unknownColumn column => "Unknown column: " ++ column
  | notJson column => "Column is not JSON: " ++ column
  | nullsOrdering token => "Invalid nulls ordering: " ++ token
  | conflictColumn column => "Unknown column in on_conflict: " ++ column
  | noConflictTarget table =>
      "Cannot perform upsert on table " ++ table ++
        ": no primary key or unique constraint"
  | emptyBatch => "Empty array provided"
  | recordNotObject => "Invalid request body: expected an array of objects"
  | emptyRecord => "Cannot insert an empty record in a batch"
  | inconsistentColumns index column =>
      "Inconsistent columns: record " ++ natText index ++ " has column " ++
        column ++ " which is missing from the first record"
  | noFields => "No fields to update"
  | updateWithoutFilter => "Batch update requires at least one filter"
  | deleteWithoutFilter => "Batch delete requires at least one filter"
  | noPrimaryKey table => "Table " ++ table ++ " has no primary key"
  | primaryKeyCount expected actual =>
      "Expected " ++ natText expected ++ " primary key value(s), got " ++
        natText actual
  | listRequired operator column =>
      "Operator " ++ operator.token ++ " requires a list value: " ++ column
  | nullRefused operator column =>
      "Operator " ++ operator.token ++ " does not accept null: " ++ column
  | listRefused operator column =>
      "Operator " ++ operator.token ++ " does not accept a list value: " ++
        column
  | isValue value => "Invalid value for is: " ++ value.quoted
  | bodyEmpty => "Invalid request body: empty body"
  | bodyMalformed error => "Invalid request body: " ++ error.message
  | bodyShape fault => "Invalid request body: " ++ fault.message
  | bodyNotObject => "Invalid request body: expected an object"
  | bodyNotRecords => "Invalid request body"

/-- Why a value is no integer. -/
inductive NotInteger
  | malformed (value : Value)
  | tooManyDigits (count : Nat)
  | kind (name : String)
  | noNumber (text : String)
  | infinite (text : String)

/-- The wording of a value that is no integer. The source form of a text is
cut after 200 characters. -/
def NotInteger.message : NotInteger → String
  | malformed value =>
      "invalid literal for int() with base 10: " ++
        String.ofList (value.quoted.toList.take 200)
  | tooManyDigits count => Text.digitLimitMessage (some count)
  | kind name =>
      "int() argument must be a string, a bytes-like object or a real " ++
        "number, not '" ++ name ++ "'"
  | noNumber text => "cannot convert " ++ text ++ " to integer"
  | infinite text => "cannot convert " ++ text ++ " to integer"

/-- What nobody planned for. -/
inductive Unexpected
  | raised (message : String)
  | notWritable (fault : Json.WriteFault)
  | integerTooLong
  | notEncodable
  | undecodableText (error : Encoding.DecodeError)
  | countNotInteger (cause : NotInteger)
  | planMalformed (error : Json.ReadError)

/-- The wording of what nobody planned for. -/
def Unexpected.message : Unexpected → String
  | raised message => message
  | notWritable fault => fault.message
  | integerTooLong => Text.digitLimitMessage none
  | notEncodable =>
      "[TypeError('cannot convert dictionary update sequence element #0 to " ++
        "a sequence'), TypeError('vars() argument must have __dict__ " ++
        "attribute')]"
  | undecodableText error => error.message
  | countNotInteger cause => cause.message
  | planMalformed error => error.message

/-- Why an operation fails. -/
inductive Error
  | invalid (cause : Invalid)
  | tableNotFound (schema name : String)
  | recordNotFound (table : String) (key : Value)
  | statementFailed (message : String)
  | rowsUnreadable (message : String)
  | planUnexpected (plan : Value)
  | unexpected (cause : Unexpected)

namespace Error

/-- The wording of a failure. -/
def message : Error → String
  | invalid cause => cause.message
  | tableNotFound schema name => "Table not found: " ++ schema ++ "." ++ name
  | recordNotFound table key =>
      "No " ++ table ++ " record with id " ++ key.display
  | statementFailed message => "Query execution failed: " ++ message
  | rowsUnreadable message => "Failed to read result rows: " ++ message
  | planUnexpected plan => "Unexpected EXPLAIN output: " ++ plan.quoted
  | unexpected cause => cause.message

/-- The status a failure is answered with. -/
def status : Error → Nat
  | invalid _ => 400
  | tableNotFound .. | recordNotFound .. => 404
  | statementFailed _ | rowsUnreadable _ | planUnexpected _ | unexpected _ =>
      500

theorem status_eq_400_iff {e : Error} :
    e.status = 400 ↔ ∃ cause, e = .invalid cause := by
  cases e <;> simp [status]

end Error

/-- Computations that may fail. -/
abbrev Result (α : Type) := Except Error α

/-- Fail because the request is not valid. -/
def refuse {α : Type} (cause : Invalid) : Result α := .error (.invalid cause)

/-- The document of a value; a value without one is not planned for. -/
def encodeDocument (layout : Json.Layout) (value : Value) : Result String :=
  match Json.encode layout value with
  | .ok document => .ok document
  | .error fault => .error (.unexpected (.notWritable fault))

end TableGate
