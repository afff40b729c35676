import TableGate.Text.Integer

/-!
# Names that may stand in a statement

Only names made of ASCII letters, digits and underscores, not starting with a
digit, ever reach the text of a statement. `Identifier` is the type of such
names: a function that takes one cannot be handed anything else. `Digits` does
the same for the array indexes of a JSON path.
-/

namespace TableGate

/-- A letter or underscore, with which a name may start. -/
def isNameStart (c : Char) : Bool := c.isAlpha || c == '_'

/-- A letter, digit or underscore, with which a name may go on. -/
def isNamePart (c : Char) : Bool := c.isAlphanum || c == '_'

/-- Whether the characters form a name. -/
def isName : List Char → Bool
  | [] => false
  | c :: rest => isNameStart c && rest.all isNamePart

/-- A name that may stand in a statement. -/
structure Identifier where
  text : String
  isName : isName text.toList = true
deriving DecidableEq, Repr

namespace Identifier

/-- The text as a name, if it is one. -/
def ofString? (s : String) : Option Identifier :=
  if h : TableGate.isName s.toList = true then some ⟨s, h⟩ else none

/-- The name between double quotes. -/
def quoted (name : Identifier) : String :=
  .ofList ('\x22' :: name.text.toList ++ ['\x22'])

theorem text_ofString? {s : String} {name : Identifier}
    (h : ofString? s = some name) : name.text = s := by
  unfold ofString? at h
  split at h
  · cases h; rfl
  · cases h

theorem isSome_ofString? {s : String} :
    (ofString? s).isSome = TableGate.isName s.toList := by
  unfold ofString?
  split <;> simp_all

end Identifier

/-- Whether the characters are one or more ASCII digits. -/
def isDigits (cs : List Char) : Bool := !cs.isEmpty && cs.all Char.isDigit

/-- A run of ASCII digits, leading zeros kept. -/
structure Digits where
  text : String
  isDigits : isDigits text.toList = true
deriving DecidableEq, Repr

/-- The text as a run of digits, if it is one. -/
def Digits.ofString? (s : String) : Option Digits :=
  if h : TableGate.isDigits s.toList = true then some ⟨s, h⟩ else none

end TableGate
