import TableGate.Text.Blank
import TableGate.Text.Case

/-!
# Operators and connectives

A filter compares a column with a value by one of ten operators, and groups
of filters are joined by `or` or `and`. Tokens are read without regard to case
and outer blanks; a token that names no operator is not an error here, since
the filter that carries it is refused later together with its column.

## Main results

* `Operator.ofToken?_token`: every operator is read from its token.
-/

namespace TableGate

/-- The operators of a filter. -/
inductive Operator
  | eq
  | neq
  | gt
  | gte
  | lt
  | lte
  | like
  | ilike
  | in
  | is
deriving DecidableEq, Repr

namespace Operator

/-- All operators. -/
def all : List Operator := [eq, neq, gt, gte, lt, lte, like, ilike, .in, is]

/-- The token of an operator in requests. -/
def token : Operator → String
  | eq => "eq"
  | neq => "neq"
  | gt => "gt"
  | gte => "gte"
  | lt => "lt"
  | lte => "lte"
  | like => "like"
  | ilike => "ilike"
  | .in => "in"
  | is => "is"

/-- The operator in a statement. -/
def sql : Operator → String
  | eq => "="
  | neq => "!="
  | gt => ">"
  | gte => ">="
  | lt => "<"
  | lte => "<="
  | like => "LIKE"
  | ilike => "ILIKE"
  | .in => "IN"
  | is => "IS"

/-- The operator a token names, case and outer blanks aside. -/
def ofToken? (token : String) : Option Operator :=
  let small := Text.lower (Text.trim token)
  all.find? fun operator => operator.token == small

theorem ofToken?_token (operator : Operator) :
    ofToken? operator.token = some operator := by
  cases operator <;> decide +kernel

/-- The operators that compare by size. -/
def isNumeric : Operator → Bool
  | gt | gte | lt | lte => true
  | _ => false

end Operator

/-- How the members of a group are joined. -/
inductive Connective
  | or
  | and
deriving DecidableEq, Repr

namespace Connective

/-- The word of a connective in messages. -/
def word : Connective → String
  | or => "OR"
  | and => "AND"

/-- What starts a nested group of this connective, in small letters. -/
def opening : Connective → List Char
  | or => ['o', 'r', '(']
  | and => ['a', 'n', 'd', '(']

end Connective
end TableGate
