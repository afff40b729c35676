import TableGate.Path
import TableGate.Text.Split

/-!
# Filters

A filter compares a column with a value. Filters that share a nonzero group
number and are marked as members of an `or` group form one disjunction; all
others stand alone. The value of a filter is null, a truth value, a number, a
text or a sequence of values without parts.

A filter is written `column.operator.value`. Only the first two dots count, so
a value may hold dots. Reading applies the few rules that give a text another
meaning: after `is` the words `null`, `true` and `false`, and after `in` a
list of texts between commas, with parentheses around the list and double
quotes around its items optional.

## Main results

* `FilterValue.ofValue_toValue`: a filter value is read back from the value it
  stands for.
-/

namespace TableGate

open Number (Binary64 Decimal)

/-- The value of a filter. -/
inductive FilterValue
  | null
  | bool (b : Bool)
  | int (i : Int)
  | float (x : Binary64)
  | decimal (d : Decimal)
  | text (s : String)
  | sequence (items : List Scalar)
deriving DecidableEq, Repr

namespace FilterValue

/-- The name of the kind of a value. -/
def kind : FilterValue → String
  | null => "null"
  | bool _ => "boolean"
  | int _ | float _ | decimal _ => "number"
  | text _ => "string"
  | sequence _ => "sequence"

/-- The parts of a sequence, if none of them has parts itself. -/
def scalars? (items : List Value) : Option (List Scalar) :=
  items.mapM fun item =>
    match item with
    | .scalar s => some s
    | _ => none

/-- The filter value of the items of a sequence. -/
def ofItems (items : List Value) : Result FilterValue :=
  match scalars? items with
  | some scalars => .ok (.sequence scalars)
  | none => refuse .nestedSequence

/-- The filter value of a value, unless it is of a kind that no filter can
compare with. -/
def ofValue (value : Value) : Result FilterValue :=
  match value with
  | .scalar .null => .ok .null
  | .scalar (.bool b) => .ok (.bool b)
  | .scalar (.int i) => .ok (.int i)
  | .scalar (.float x) => .ok (.float x)
  | .scalar (.decimal d) => .ok (.decimal d)
  | .scalar (.text s) => .ok (.text s)
  | .list items => ofItems items
  | .tuple items => ofItems items
  | _ => refuse (.unsupportedValue value.kindName)

/-- The value a filter value stands for; a sequence is a list. -/
def toValue : FilterValue → Value
  | null => .null
  | bool b => .bool b
  | int i => .int i
  | float x => .float x
  | decimal d => .scalar (.decimal d)
  | text s => .text s
  | sequence items => .list (items.map .scalar)

theorem scalars?_map (items : List Scalar) :
    scalars? (items.map .scalar) = some items := by
  induction items with
  | nil => rfl
  | cons item items ih =>
      have h : (items.map Value.scalar).mapM (fun item =>
          match item with
          | .scalar s => some s
          | _ => none) = some items := ih
      simp [scalars?, List.mapM_cons, h]

theorem ofValue_toValue (value : FilterValue) :
    ofValue value.toValue = .ok value := by
  cases value <;> simp [toValue, ofValue, ofItems, scalars?_map]

end FilterValue

/-- One comparison of a column with a value. An operator of `none` stands for
a token that names none. -/
structure Filter where
  column : String
  operator : Option Operator
  value : FilterValue := .null
  isOr : Bool := false
  group : Int := 0
deriving DecidableEq, Repr

namespace Filter

/-- Whether the filter belongs to an `or` group. -/
def isGrouped (f : Filter) : Bool := f.isOr && f.group != 0

/-! ## Reading -/

/-- The value after `is`: the words for null and the truth values, any other
text as it is. -/
def coerceIs (s : String) : Value :=
  let small := Text.lower (Text.trim s)
  if small = "null" then .null
  else if small = "true" then .bool true
  else if small = "false" then .bool false
  else .text s

/-- One item of the list after `in`. -/
def coerceItem (cs : List Char) : Value :=
  .text (.ofList (Text.stripChars (· == '\x22') (Text.trimChars cs)))

/-- A text without the parentheses around it, if it has both. -/
def withoutParens (cs : List Char) : List Char :=
  if cs.head? = some '(' ∧ cs.getLast? = some ')' then (cs.drop 1).dropLast
  else cs

/-- The list after `in`. -/
def coerceIn (s : String) : Value :=
  match withoutParens (Text.trimChars s.toList) with
  | [] => .list []
  | inner => .list ((Text.splitOn ',' inner).map coerceItem)

/-- The meaning of a value after an operator; only texts have one that
differs from themselves. -/
def coerce (operator : Option Operator) (raw : Value) : Value :=
  match operator, raw with
  | some .is, .scalar (.text s) => coerceIs s
  | some .in, .scalar (.text s) => coerceIn s
  | _, _ => raw

/-- The filter of a column, an operator token and a value. -/
def build (column token : String) (raw : Value) (isOr : Bool) (group : Int) :
    Result Filter := do
  let operator := Operator.ofToken? token
  let value ← FilterValue.ofValue (coerce operator raw)
  return { column := Text.trim column, operator, value, isOr, group }

/-- The column, operator and value of a filter text: what stands before the
first dot, between the first two, and after the second. -/
def cutTriple? (segment : List Char) :
    Option (List Char × List Char × List Char) := do
  let (column, rest) ← Text.cut? '.' (Text.trimChars segment)
  let (token, value) ← Text.cut? '.' rest
  return (column, token, value)

/-! ## Writing -/

/-- The value of a filter as its text shows it. -/
def valueText : FilterValue → String
  | .null => "null"
  | .bool true => "true"
  | .bool false => "false"
  | .sequence items =>
      "(" ++ ",".intercalate (items.map Scalar.display) ++ ")"
  | value => value.toValue.display

/-- The text of a filter; an operator that is none is left out. -/
def text (f : Filter) : String :=
  f.column ++ "." ++ (f.operator.map Operator.token).getD "" ++ "." ++
    valueText f.value

end Filter
end TableGate
