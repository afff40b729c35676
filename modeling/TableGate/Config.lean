import TableGate.Value.Basic

/-!
# Configuration

What the service is called, which schemas it serves, how much it logs, and how
large a page may be. A page has a default and a largest size, and the rows of
all pages together may be bounded; `-1` stands for no bound.
-/

namespace TableGate

/-- The bound that bounds nothing. -/
def unbounded : Int := -1

/-- Limits on the pages of a list. -/
structure Pagination where
  defaultLimit : Int := 25
  maxLimit : Int := 100
  maxTotal : Int := unbounded
deriving DecidableEq, Repr

/-- A page of a list: how many rows, after how many others. -/
structure Page where
  limit : Int
  offset : Int
deriving DecidableEq, Repr

namespace Pagination

/-- Limits for administrative use. -/
def administrative : Pagination where
  defaultLimit := 100
  maxLimit := 1000

/-- The larger limit that is still allowed. -/
def capLimit (pagination : Pagination) (limit : Int) : Int :=
  if pagination.maxLimit ≠ unbounded ∧ pagination.maxLimit < limit then
    pagination.maxLimit
  else limit

/-- The limit that keeps a page within the total. -/
def capTotal (pagination : Pagination) (offset limit : Int) : Int :=
  if pagination.maxTotal ≠ unbounded then
    max 0 (min limit (pagination.maxTotal - offset))
  else limit

/-- The page that is served for the one asked for. -/
def apply (pagination : Pagination) (limit offset : Option Int) : Page :=
  let offset := offset.getD 0
  let limit := pagination.capLimit (limit.getD pagination.defaultLimit)
  { limit := pagination.capTotal offset limit, offset }

end Pagination

/-- The configuration of the service. -/
structure Config where
  projectName : String
  version : String := "0.1.0"
  description : Option String := none
  author : Option String := none
  email : Option String := none
  licenseInfo : Option Fields := none
  debugMode : Bool := false
  includeSchemas : List String := ["public"]
  logSql : Bool := false
  estimatedCountThreshold : Int := 100000
  pagination : Pagination := {}

end TableGate
