import TableGate.Sql.Statement

/-!
# The WHERE clause

The filters of a request form a conjunction of conditions: each filter that
stands alone is one, and so are the members of each `or` group together, at
the place of the first of them. `conditions` works out that structure as data
before anything is rendered.

A filter renders as its column, its operator and its value, with the values
bound. Null becomes `IS NULL` or `IS NOT NULL`, an empty list is false, and a
JSON path that extracts text is cast to a number when it is compared by size.

## Main results

* `conditions_eq_nil_iff`: only an empty list of filters gives no conditions.
-/

namespace TableGate

/-- One conjunct of a WHERE clause. -/
inductive Condition
  | single (f : Filter)
  | anyOf (members : List Filter)
deriving DecidableEq, Repr

namespace Filter

/-- Whether a filter belongs to the `or` group of a number. -/
def inGroup (group : Int) (f : Filter) : Bool := f.isOr && f.group == group

/-- The conditions of the filters that follow, the groups of the given numbers
being settled already. -/
def conditionsFrom (all : List Filter) : List Int → List Filter →
    List Condition
  | _, [] => []
  | settled, f :: rest =>
      if f.isGrouped then
        if settled.contains f.group then conditionsFrom all settled rest
        else
          .anyOf (all.filter (inGroup f.group)) ::
            conditionsFrom all (f.group :: settled) rest
      else .single f :: conditionsFrom all settled rest

/-- The conditions of a list of filters. -/
def conditions (filters : List Filter) : List Condition :=
  conditionsFrom filters [] filters

theorem conditions_eq_nil_iff {filters : List Filter} :
    conditions filters = [] ↔ filters = [] := by
  cases filters with
  | nil => simp [conditions, conditionsFrom]
  | cons f rest =>
      unfold conditions conditionsFrom
      split <;> simp

end Filter

namespace Sql

/-! ## One filter -/

/-- The keywords after IS. -/
def isKeyword? (word : String) : Option Word :=
  if word = "null" then some .isNull
  else if word = "notnull" ∨ word = "not_null" then some .isNotNull
  else if word = "true" then some .isTrue
  else if word = "false" then some .isFalse
  else none

/-- The failure for a value that is no keyword. It quotes the value, which
goes wrong where the value cannot be shown. -/
def noKeyword (value : Value) : Error :=
  if value.isShowable then .invalid (.isValue value)
  else .unexpected .integerTooLong

/-- The keyword a value stands for after IS. -/
def isWord (value : FilterValue) : Result Word :=
  match value with
  | .null => .ok .isNull
  | .bool true => .ok .isTrue
  | .bool false => .ok .isFalse
  | .text s =>
      match isKeyword? (Text.lower (Text.trim s)) with
      | some word => .ok word
      | none => .error (noKeyword value.toValue)
  | value => .error (noKeyword value.toValue)

/-- The column of a filter, cast to a number where text is compared by
size. -/
def comparedColumn (path : ColumnPath) (operator : Operator) :
    Result Fragment := do
  let column ← pathFragment path
  if path.extractsText && operator.isNumeric then
    return .word .openParen :: column ++ [.word .asNumeric]
  else return column

/-- A column that is one of a list of values. -/
def membership (column : Fragment) (items : List Value) : Fragment :=
  match items with
  | [] => [.word .false]
  | items =>
      column ++ .word .openList ::
        commaList (items.map fun item => [.bind item]) ++ [.word .closeParen]

/-- A comparison with one value. -/
def comparison (f : Filter) (operator : Operator) (column : Fragment) :
    Result Fragment :=
  match f.value with
  | .null =>
      if operator = .eq then .ok (column ++ [.word .isNull])
      else if operator = .neq then .ok (column ++ [.word .isNotNull])
      else refuse (.nullRefused operator f.column)
  | .sequence _ => refuse (.listRefused operator f.column)
  | value => .ok (column ++ [.word (.compare operator), .bind value.toValue])

/-- The rendering of a filter. -/
def filterFragment (f : Filter) : Result Fragment :=
  match f.operator with
  | none => refuse (.unknownOperator f.column)
  | some operator => do
      let path ← ColumnPath.ofColumn f.column
      let column ← comparedColumn path operator
      match operator with
      | .is => return column ++ [.word (← isWord f.value)]
      | .in =>
          match f.value with
          | .null => refuse (.listRequired .in f.column)
          | .sequence items => return membership column (items.map .scalar)
          | value => return membership column [value.toValue]
      | operator => comparison f operator column

/-! ## The clause -/

/-- The rendering of a condition. -/
def conditionFragment : Condition → Result Fragment
  | .single f => filterFragment f
  | .anyOf members => do
      let parts ← members.mapM filterFragment
      return .word .openParen :: joinFragments .or parts ++ [.word .closeParen]

/-- The WHERE clause of a list of filters; without filters there is none. -/
def whereClause (filters : List Filter) : Result Fragment := do
  match ← (Filter.conditions filters).mapM conditionFragment with
  | [] => return []
  | parts => return .word .whereAll :: joinFragments .and parts

end Sql
end TableGate
