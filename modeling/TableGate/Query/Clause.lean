import TableGate.Error
import TableGate.Text.Integer
import TableGate.Text.Split

/-!
# The smaller clauses of a request

Order lists, column lists, page bounds and count types. An order entry is a
column followed by words after dots, of which `asc`, `desc`, `nullsfirst` and
`nullslast` mean something and the others nothing; of contradicting words the
last counts. A page bound is an integer that is not negative.

## Main results

* `CountType.ofToken?_token`: every count type is read from its token.
-/

namespace TableGate

/-- One entry of an order list. The word for nulls is kept as it is; it is
checked with the other names of a request. -/
structure OrderBy where
  column : String
  desc : Bool := false
  nulls : String := ""
deriving DecidableEq, Repr

namespace OrderBy

/-- What a word after the column changes. -/
def apply (entry : OrderBy) (word : String) : OrderBy :=
  if word = "desc" then { entry with desc := true }
  else if word = "asc" then { entry with desc := false }
  else if word = "nullsfirst" then { entry with nulls := "first" }
  else if word = "nullslast" then { entry with nulls := "last" }
  else entry

/-- Read one entry; a blank one is none. -/
def readEntry (segment : List Char) : Result (Option OrderBy) :=
  match Text.trimChars segment with
  | [] => .ok none
  | entry =>
      match Text.splitOn '.' entry with
      | [] => .ok none
      | lead :: words =>
          match Text.trimChars lead with
          | [] => refuse (.orderItem (.ofList entry))
          | column =>
              let start : OrderBy := { column := .ofList column }
              let apply (entry : OrderBy) (word : List Char) : OrderBy :=
                entry.apply (.ofList (Text.lowerChars (Text.trimChars word)))
              .ok (some (words.foldl apply start))

/-- Read an order list. -/
def read (s : String) : Result (List OrderBy) := do
  let entries ← (Text.splitOn ',' s.toList).mapM readEntry
  return entries.filterMap id

end OrderBy

/-- The entries of a comma list, trimmed, blank ones left out. -/
def readColumnList (s : String) : List String :=
  ((Text.splitOn ',' s.toList).map Text.trimChars).filterMap fun entry =>
    if entry = [] then none else some (.ofList entry)

/-- Read a page bound; a blank text is none. -/
def readBound (name value : String) : Result (Option Int) :=
  if Text.isAllBlank value then .ok none
  else
    match Text.readInteger (Text.trim value) with
    | .ok n => if n < 0 then refuse (.bound name value) else .ok (some n)
    | .error _ => refuse (.bound name value)

/-- How the total of a list request is found. -/
inductive CountType
  | exact
  | planned
  | estimated
deriving DecidableEq, Repr

namespace CountType

/-- All count types. -/
def all : List CountType := [exact, planned, estimated]

/-- The token of a count type. -/
def token : CountType → String
  | exact => "exact"
  | planned => "planned"
  | estimated => "estimated"

/-- The count type of a token in small letters. -/
def ofToken? (token : String) : Option CountType :=
  all.find? fun count => count.token == token

theorem ofToken?_token (count : CountType) :
    ofToken? count.token = some count := by
  cases count <;> rfl

/-- Read a count type; a blank text is none. -/
def read (s : String) : Result (Option CountType) :=
  if Text.isAllBlank s then .ok none
  else
    match ofToken? (Text.lower (Text.trim s)) with
    | some count => .ok (some count)
    | none => refuse (.countType s)

end CountType
end TableGate
