import TableGate.Json.Reader
import TableGate.Value.Display

/-!
# Writing JSON documents

One writer serves the three places where values leave as JSON: documents bound
to a statement, the payload of a cursor, and response bodies. They differ in
the separators, in whether characters beyond ASCII are escaped, and in what
they accept, which a `Layout` says. Scalars that JSON does not know are written
as the text that shows them, if at all.

`Json.write` is the document of any value. `Json.encode` gives it only of a
value without fault; of several faults the first in the order of the document
is reported (`Value.writeFault?`).

## Main results

* `encode_eq_ok_iff`: exactly values without fault are written, and then as
  their document.
-/

namespace TableGate

open Text (hexDigits intText)

namespace Json

/-- How a document is laid out, and whether it may hold numbers that are not
finite and scalars that JSON does not know. -/
structure Layout where
  itemSeparator : String
  nameSeparator : String
  escapeBeyondAscii : Bool
  acceptNonFinite : Bool
  acceptForeign : Bool
deriving Repr

/-- Documents bound to a statement: blanks after separators, ASCII only, any
number but nothing foreign. -/
def Layout.spaced : Layout := ⟨", ", ": ", true, true, false⟩

/-- The payload of a cursor: no blanks, ASCII only, any scalar. -/
def Layout.compactAscii : Layout := ⟨",", ":", true, true, true⟩

/-- Response bodies: no blanks, every character but controls as it is, finite
numbers and nothing foreign. -/
def Layout.compact : Layout := ⟨",", ":", false, false, false⟩

/-- The escape of a code unit by its number. -/
def unitEscape (n : Nat) : List Char := backslash :: 'u' :: hexDigits 4 n

/-- One character of a text. -/
def textChar (escapeBeyondAscii : Bool) (c : Char) : List Char :=
  if c = quote ∨ c = backslash then [backslash, c]
  else if c = '\n' then [backslash, 'n']
  else if c = '\r' then [backslash, 'r']
  else if c = '\t' then [backslash, 't']
  else if c = '\x08' then [backslash, 'b']
  else if c = '\x0c' then [backslash, 'f']
  else if c.toNat < 0x20 then unitEscape c.toNat
  else if escapeBeyondAscii && 0x7f ≤ c.toNat then
    if c.toNat < 0x10000 then unitEscape c.toNat
    else
      let n := c.toNat - 0x10000
      unitEscape (0xd800 + n / 0x400) ++ unitEscape (0xdc00 + n % 0x400)
  else [c]

/-- A text between quotes. -/
def textChars (escapeBeyondAscii : Bool) (cs : List Char) : List Char :=
  quote :: cs.flatMap (textChar escapeBeyondAscii) ++ [quote]

/-- A text between quotes. -/
def writeText (layout : Layout) (s : String) : String :=
  .ofList (textChars layout.escapeBeyondAscii s.toList)

/-- The literal of a double. -/
def numberText : Number.Binary64 → String
  | .nan => "NaN"
  | .infinity false => "Infinity"
  | .infinity true => "-Infinity"
  | x => x.text

/-- A value without parts; one that JSON does not know as the text that shows
it. -/
def writeScalar (layout : Layout) : Scalar → String
  | .null => "null"
  | .bool true => "true"
  | .bool false => "false"
  | .int i => intText i
  | .float x => numberText x
  | .text s => writeText layout s
  | s => writeText layout s.display

mutual

/-- The document of a value. -/
def write (layout : Layout) : Value → String
  | .scalar s => writeScalar layout s
  | .list items =>
      "[" ++ layout.itemSeparator.intercalate (writeItems layout items) ++ "]"
  | .tuple items =>
      "[" ++ layout.itemSeparator.intercalate (writeItems layout items) ++ "]"
  | .object fields =>
      "\x7b" ++
        layout.itemSeparator.intercalate (writeFields layout fields) ++ "\x7d"
termination_by structural value => value

/-- The documents of the items of a sequence. -/
def writeItems (layout : Layout) : List Value → List String
  | [] => []
  | item :: items => write layout item :: writeItems layout items
termination_by structural items => items

/-- The fields of an object, each with its name. -/
def writeFields (layout : Layout) : Fields → List String
  | [] => []
  | field :: fields => writeField layout field :: writeFields layout fields
termination_by structural fields => fields

/-- One field with its name. -/
def writeField (layout : Layout) : String × Value → String
  | (name, value) =>
      writeText layout name ++ layout.nameSeparator ++ write layout value
termination_by structural field => field

end

/-- Why a value has no document. -/
inductive WriteFault
  | foreign (kind : String)
  | nonFinite
  | tooManyDigits
deriving DecidableEq, Repr

/-- The wording of a value without a document. -/
def WriteFault.message : WriteFault → String
  | foreign kind => "Object of type " ++ kind ++ " is not JSON serializable"
  | nonFinite => "Out of range float values are not JSON compliant"
  | tooManyDigits => Text.digitLimitMessage none

end Json

open Json (Layout WriteFault)

/-! ## Values without a document -/

/-- What is wrong with a value without parts. -/
def Scalar.writeFault? (layout : Layout) : Scalar → Option WriteFault
  | .null | .bool _ | .text _ => none
  | .int i => if Text.isWritable i then none else some .tooManyDigits
  | .float x =>
      if layout.acceptNonFinite || x.isFinite then none else some .nonFinite
  | s =>
      if layout.acceptForeign then none
      else some (.foreign (Value.scalar s).kindName)

namespace Value

mutual

/-- The first fault of a value. -/
def writeFault? (layout : Layout) : Value → Option WriteFault
  | .scalar s => s.writeFault? layout
  | .list items => itemFault? layout items
  | .tuple items => itemFault? layout items
  | .object fields => fieldsFault? layout fields
termination_by structural value => value

/-- The first fault of the items of a sequence. -/
def itemFault? (layout : Layout) : List Value → Option WriteFault
  | [] => none
  | item :: items => item.writeFault? layout <|> itemFault? layout items
termination_by structural items => items

/-- The first fault of the fields of an object. -/
def fieldsFault? (layout : Layout) : Fields → Option WriteFault
  | [] => none
  | field :: fields => fieldFault? layout field <|> fieldsFault? layout fields
termination_by structural fields => fields

/-- The first fault of a field. -/
def fieldFault? (layout : Layout) : String × Value → Option WriteFault
  | (_, value) => value.writeFault? layout
termination_by structural field => field

end
end Value

namespace Json

/-- The document of a value without fault. -/
def encode (layout : Layout) (value : Value) : Except WriteFault String :=
  match value.writeFault? layout with
  | some fault => .error fault
  | none => .ok (write layout value)

theorem encode_eq_ok_iff {layout : Layout} {value : Value} {s : String} :
    encode layout value = .ok s ↔
      value.writeFault? layout = none ∧ s = write layout value := by
  unfold encode
  cases value.writeFault? layout <;> simp [eq_comm]

end Json
end TableGate
