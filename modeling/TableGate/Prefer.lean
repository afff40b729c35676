import TableGate.Query.Clause

/-!
# Preferences

A client may say in the `Prefer` header what it wants back from a write, what
should happen to records that exist already, and how the total of a list is to
be found. The header is a list of tokens between commas or semicolons, each a
name with a value; case and blanks do not matter. Of several recognised values
for one name the last counts, and whatever is not recognised changes nothing.

## Main results

* `ReturnMode.ofToken?_token`, `Resolution.ofToken?_token`: every value is
  read from its token.
-/

namespace TableGate

/-- What a write answers with. -/
inductive ReturnMode
  | representation
  | minimal
  | headersOnly
deriving DecidableEq, Repr

namespace ReturnMode

/-- The value of a return mode in the header. -/
def token : ReturnMode → String
  | representation => "representation"
  | minimal => "minimal"
  | headersOnly => "headers-only"

/-- The return mode of a value. -/
def ofToken? (token : String) : Option ReturnMode :=
  [representation, minimal, headersOnly].find? fun mode => mode.token == token

theorem ofToken?_token (mode : ReturnMode) :
    ofToken? mode.token = some mode := by
  cases mode <;> rfl

end ReturnMode

/-- What happens to records that exist already. -/
inductive Resolution
  | mergeDuplicates
  | ignoreDuplicates
deriving DecidableEq, Repr

namespace Resolution

/-- The value of a resolution in the header. -/
def token : Resolution → String
  | mergeDuplicates => "merge-duplicates"
  | ignoreDuplicates => "ignore-duplicates"

/-- The resolution of a value. -/
def ofToken? (token : String) : Option Resolution :=
  [mergeDuplicates, ignoreDuplicates].find? fun resolution =>
    resolution.token == token

theorem ofToken?_token (resolution : Resolution) :
    ofToken? resolution.token = some resolution := by
  cases resolution <;> rfl

end Resolution

/-- The preferences of a request. -/
structure Preferences where
  returnMode : ReturnMode := .representation
  resolution : Option Resolution := none
  missingDefault : Bool := false
  count : Option CountType := none
deriving DecidableEq, Repr

namespace Preferences

/-- Whether existing records are asked to be merged or ignored. -/
def isUpsert (preferences : Preferences) : Bool :=
  preferences.resolution.isSome

/-- A token of the header: its name and its value. -/
structure Token where
  name : String
  value : String

/-- The token of a trimmed piece in small letters. -/
def Token.ofChars (cs : List Char) : Token :=
  let (name, value) := (Text.cut? '=' cs).getD (cs, [])
  ⟨.ofList (Text.trimChars name), .ofList (Text.trimChars value)⟩

/-- The tokens of a header. -/
def tokens (header : String) : List Token :=
  let commas := header.toList.map fun c => if c = ';' then ',' else c
  let pieces := (Text.splitOn ',' commas).map Text.trimChars
  (pieces.filter fun piece => !piece.isEmpty).map fun piece =>
    Token.ofChars (Text.lowerChars piece)

/-- What a token changes. -/
def apply (preferences : Preferences) (token : Token) : Preferences :=
  if token.name = "return" then
    match ReturnMode.ofToken? token.value with
    | some returnMode => { preferences with returnMode }
    | none => preferences
  else if token.name = "resolution" then
    match Resolution.ofToken? token.value with
    | some resolution => { preferences with resolution := some resolution }
    | none => preferences
  else if token.name = "missing" then
    if token.value = "default" then { preferences with missingDefault := true }
    else preferences
  else if token.name = "count" then
    match CountType.ofToken? token.value with
    | some count => { preferences with count := some count }
    | none => preferences
  else preferences

/-- Read a header. -/
def read (header : String) : Preferences := (tokens header).foldl apply {}

/-- Read a header that may be missing. -/
def ofHeader (header : Option String) : Preferences :=
  (header.map read).getD {}

end Preferences
end TableGate
